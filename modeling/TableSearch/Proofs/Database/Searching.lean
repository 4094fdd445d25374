/-
Cells that are searched for patterns.

`LikeAt` is what SQL says of the search of one cell for one pattern.  The embedded engine
agrees with it wherever neither text holds the character zero, with its own rule for which
characters are alike: `sqlite_likeAt`.
-/
import TableSearch.Database.Meaning
import TableSearch.Proofs.Text.Codes
import TableSearch.Proofs.Text.Like

namespace TableSearch
namespace Meaning

/-- A backend searches a cell for a pattern as SQL has it, where `form` is the text that it
searches, or nothing for a cell that holds none. -/
structure LikeAt (m : Meaning) (same : Char → Char → Bool) (cast : Bool) (escape : Char)
    (pattern : String) (cell : Cell) (form : Option String) : Prop where
  missing : form = none ↔ cell = .null
  found : m.like cast escape cell (.text pattern) = .yes ↔
    ∃ t, form = some t ∧ Text.Like same escape pattern.toList t.toList

/-! ## The embedded engine -/

def foldedCode (c : Char) : Nat :=
  Collation.lowerCode (Utf8.code c)

def sameLetter (p c : Char) : Bool :=
  foldedCode p == foldedCode c

theorem foldedCodes_encode {cs : List Char} (h : Char.ofNat 0 ∉ cs) :
    foldedCodes (Utf8.encode cs) = cs.map foldedCode := by
  rw [foldedCodes, Utf8.takeWhile_encode h, Utf8.codes_encode, List.map_map]
  rfl

/-- An ASCII character before, or between, the letters of the two cases. -/
def Caseless (c : Char) : Prop :=
  c.toNat < 65 ∨ 90 < c.toNat ∧ c.toNat < 97

instance (c : Char) : Decidable (Caseless c) :=
  inferInstanceAs (Decidable (_ ∨ _))

theorem foldedCode_eq {d : Char} (hd : Caseless d) (c : Char) :
    (foldedCode c == d.toNat) = (c == d) := by
  have hiff : foldedCode c = d.toNat ↔ c = d := by
    have hchars : c = d ↔ c.toNat = d.toNat := by
      constructor
      · intro h
        rw [h]
      · intro h
        rw [← Char.ofNat_toNat c, h, Char.ofNat_toNat]
    rw [Caseless] at hd
    rw [hchars, foldedCode, Utf8.code, Utf8.settled, Collation.lowerCode]
    split_ifs <;> omega
  rw [Bool.eq_iff_iff, beq_iff_eq, beq_iff_eq, hiff]

theorem textBytes?_eq_none {c : Cell} : c.textBytes? = none ↔ c = .null := by
  cases c <;> simp [Cell.textBytes?, Cell.numberText?]

/-- The embedded engine searches as SQL has it, when it can read the texts to their ends. -/
theorem sqlite_likeAt {escape : Char} (hescape : Caseless escape) (cast : Bool)
    {pattern : String} (hpattern : Char.ofNat 0 ∉ pattern.toList) {cell : Cell}
    {form : Option String} (hform : cell.textBytes? = form.map fun t => Utf8.encode t.toList)
    (htext : ∀ t, form = some t → Char.ofNat 0 ∉ t.toList) :
    sqlite.LikeAt sameLetter cast escape pattern cell form := by
  constructor
  · rw [← textBytes?_eq_none, hform, Option.map_eq_none_iff]
  · show likeCells escape cell (Cell.ofText pattern) = .yes ↔ _
    rw [likeCells, hform, Cell.ofText, Cell.textBytes?]
    cases form with
    | none => simp
    | some t =>
      have hlower : Collation.lowerCode escape.toNat = escape.toNat := by
        rw [Caseless] at hescape
        rw [Collation.lowerCode, if_neg (by omega)]
      have hyes : ∀ b : Bool, Truth.ofBool b = .yes ↔ b = true := by decide
      rw [Option.map_some]
      dsimp only
      rw [hyes, foldedCodes_encode hpattern, foldedCodes_encode (htext t rfl),
        Text.matchesPattern_map, hlower]
      rw [show (fun p => foldedCode p == 37) = (· == '%') from
          funext (foldedCode_eq (d := '%') (by decide)),
        show (fun p => foldedCode p == 95) = (· == '_') from
          funext (foldedCode_eq (d := '_') (by decide)),
        show (fun p => foldedCode p == escape.toNat) = (· == escape) from
          funext (foldedCode_eq hescape)]
      rw [show (fun p c => foldedCode p == foldedCode c) = sameLetter from rfl,
        Text.matchesPattern_iff]
      simp

end Meaning
end TableSearch
