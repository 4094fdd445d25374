/-
Texts compared by their bytes.

Keys are kept in the order of their characters.  The bytes of texts are in the same order:
`encode_lt_iff`.  The first byte of a character tells its width, and a wider one has the larger
first byte; so a later character has the larger bytes, whatever follows.
-/
import Mathlib.Tactic.SplitIfs
import TableSearch.Proofs.Text.Codes

namespace TableSearch
namespace Utf8

theorem ofNat_cons_lt {m n : Nat} (hm : m < 256) (hn : n < 256) {s t : List UInt8} :
    UInt8.ofNat m :: s < UInt8.ofNat n :: t ↔ m < n ∨ m = n ∧ s < t := by
  rw [List.cons_lt_cons_iff, UInt8.lt_iff_toNat_lt, ← UInt8.toNat_inj, toNat_ofNat hm,
    toNat_ofNat hn]

theorem encodeChar_append_lt {c d : Char} (h : c.toNat < d.toNat) (s t : List UInt8) :
    String.utf8EncodeChar c ++ s < String.utf8EncodeChar d ++ t := by
  have hc := toNat_lt c
  have hd := toNat_lt d
  have hshift : ∀ n : Nat, n < 0x110000 →
      n / 64 / 64 = n / 4096 ∧ n / 4096 / 64 = n / 262144 ∧ n / 262144 % 8 = n / 262144 := by
    omega
  have hcs := hshift c.toNat hc
  have hds := hshift d.toNat hd
  rw [encodeChar_eq c, encodeChar_eq d]
  -- By the widths of both.  In each case the first bytes that differ are compared as numbers.
  split_ifs <;> simp only [List.cons_append, List.nil_append] <;>
    simp (disch := omega) only [ofNat_cons_lt] <;> omega

theorem append_lt_append_left (p : List UInt8) {s t : List UInt8} (h : s < t) :
    p ++ s < p ++ t := by
  induction p with
  | nil => exact h
  | cons b rest ih => exact List.cons_lt_cons_iff.mpr (.inr ⟨rfl, ih⟩)

theorem encode_lt {a b : List Char} (h : a < b) : encode a < encode b := by
  induction a generalizing b with
  | nil =>
    cases b with
    | nil => exact absurd h (List.lt_irrefl _)
    | cons d rest =>
      show [] < String.utf8EncodeChar d ++ encode rest
      cases hbytes : String.utf8EncodeChar d with
      | nil => exact absurd hbytes String.utf8EncodeChar_ne_nil
      | cons first more => exact List.nil_lt_cons first _
  | cons c as ih =>
    cases b with
    | nil => exact absurd h (List.not_lt_nil _)
    | cons d bs =>
      show String.utf8EncodeChar c ++ encode as < String.utf8EncodeChar d ++ encode bs
      rcases List.cons_lt_cons_iff.mp h with hlt | ⟨rfl, hlt⟩
      · exact encodeChar_append_lt hlt _ _
      · exact append_lt_append_left _ (ih hlt)

/-- Texts are in the order of their bytes. -/
theorem encode_lt_iff {a b : String} : encode a.toList < encode b.toList ↔ a < b := by
  constructor
  · intro h
    by_cases hab : a < b
    · exact hab
    by_cases hba : b < a
    · exact absurd (encode_lt hba) (List.lt_asymm h)
    have heq : a = b :=
      Std.Trichotomous.trichotomous (r := ((· < ·) : String → String → Prop)) _ _ hab hba
    rw [heq] at h
    exact absurd h (List.lt_irrefl _)
  · intro h
    exact encode_lt h

end Utf8
end TableSearch
