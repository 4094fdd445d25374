/-
Cutting texts at separators, and replacing characters.
-/

namespace TableSearch
namespace Text

/-! ## Cutting at one separator -/

/-- The parts before and after the first separator. -/
def cutFirstChars (sep : Char) : List Char → Option (List Char × List Char)
  | [] => none
  | c :: rest =>
      if c = sep then some ([], rest)
      else (cutFirstChars sep rest).map fun (before, after) => (c :: before, after)

def cutLastChars (sep : Char) (cs : List Char) : Option (List Char × List Char) :=
  (cutFirstChars sep cs.reverse).map fun (after, before) => (before.reverse, after.reverse)

def cutFirst (sep : Char) (s : String) : Option (String × String) :=
  (cutFirstChars sep s.toList).map fun (a, b) => (String.ofList a, String.ofList b)

def cutLast (sep : Char) (s : String) : Option (String × String) :=
  (cutLastChars sep s.toList).map fun (a, b) => (String.ofList a, String.ofList b)

theorem cutFirstChars_append {sep : Char} {a b : List Char} (h : sep ∉ a) :
    cutFirstChars sep (a ++ sep :: b) = some (a, b) := by
  induction a with
  | nil => simp [cutFirstChars]
  | cons c rest ih =>
    have hc : c ≠ sep := fun e => h (by simp [e])
    have hr : sep ∉ rest := fun m => h (by simp [m])
    simp [cutFirstChars, hc, ih hr]

theorem cutFirstChars_eq_none {sep : Char} {cs : List Char} :
    cutFirstChars sep cs = none ↔ sep ∉ cs := by
  induction cs with
  | nil => simp [cutFirstChars]
  | cons c rest ih =>
    by_cases hc : c = sep
    · simp [cutFirstChars, hc]
    · have hc' : sep ≠ c := fun e => hc e.symm
      simp [cutFirstChars, hc, hc', ih]

theorem eq_of_cutFirstChars {sep : Char} {cs a b : List Char}
    (h : cutFirstChars sep cs = some (a, b)) : cs = a ++ sep :: b ∧ sep ∉ a := by
  induction cs generalizing a with
  | nil => simp [cutFirstChars] at h
  | cons c rest ih =>
    by_cases hc : c = sep
    · simp [cutFirstChars, hc] at h
      obtain ⟨rfl, rfl⟩ := h
      simp [hc]
    · simp only [cutFirstChars, if_neg hc, Option.map_eq_some_iff, Prod.mk.injEq,
        Prod.exists] at h
      obtain ⟨a', b', hcut, rfl, rfl⟩ := h
      obtain ⟨hrest, hmem⟩ := ih hcut
      refine ⟨by rw [hrest]; rfl, fun hm => ?_⟩
      cases hm with
      | head => exact hc rfl
      | tail _ hm => exact hmem hm

/-! ## Cutting at every separator -/

/-- The parts between separators.  A text without separators is one part. -/
def pieceChars (sep : Char) : List Char → List (List Char)
  | [] => [[]]
  | c :: rest =>
      if c = sep then [] :: pieceChars sep rest
      else
        match pieceChars sep rest with
        | [] => [[c]]
        | piece :: more => (c :: piece) :: more

def pieces (sep : Char) (s : String) : List String :=
  (pieceChars sep s.toList).map String.ofList

theorem pieceChars_ne_nil {sep : Char} {cs : List Char} : pieceChars sep cs ≠ [] := by
  cases cs with
  | nil => simp [pieceChars]
  | cons c rest =>
    by_cases hc : c = sep
    · simp [pieceChars, hc]
    · simp only [pieceChars, if_neg hc]
      split <;> simp

theorem pieces_ne_nil {sep : Char} {s : String} : pieces sep s ≠ [] := by
  simp [pieces, pieceChars_ne_nil]

/-! ## Replacing and folding characters -/

/-- Every occurrence of `c` replaced by the characters `text`. -/
def replaceChars (c : Char) (text : List Char) (cs : List Char) : List Char :=
  cs.flatMap fun x => if x = c then text else [x]

/-- Lower case of the 26 ASCII capitals; other characters stay as they are. -/
def asciiLower (s : String) : String :=
  String.ofList (s.toList.map Char.toLower)

def startsWith (start : String) (s : String) : Bool :=
  start.toList.isPrefixOf s.toList

/-- What follows `start`, when the text begins with it. -/
def dropStart? (start : String) (s : String) : Option String :=
  (start.toList.isPrefixOf? s.toList).map String.ofList

def joined (sep : String) (parts : List String) : String :=
  String.intercalate sep parts

end Text
end TableSearch
