/-
What patterns match, and what escaping does to them.

`Like` is the reading of a pattern in SQL.  In this reading the characters of an escaped text
stand for themselves, one by one, so that the pattern of a text matches exactly the texts
that hold it: `like_containsPattern`.  The matching function decides the reading:
`matchesPattern_iff`.
-/
import Mathlib.Data.List.Forall2
import TableSearch.Text.Pattern

namespace TableSearch
namespace Text

/-! ## The reading of patterns -/

/-- Characters match a pattern, where `same` says which characters are alike.  The escape
character takes the character after it by itself, whatever it is. -/
inductive Like (same : Char → Char → Bool) (escape : Char) : List Char → List Char → Prop where
  | done : Like same escape [] []
  | escaped {q c : Char} {ps cs : List Char} (hsame : same q c = true)
      (h : Like same escape ps cs) : Like same escape (escape :: q :: ps) (c :: cs)
  | any {ps cs : List Char} (skipped : List Char) (hany : '%' ≠ escape)
      (h : Like same escape ps cs) : Like same escape ('%' :: ps) (skipped ++ cs)
  | one {c : Char} {ps cs : List Char} (hone : '_' ≠ escape) (h : Like same escape ps cs) :
      Like same escape ('_' :: ps) (c :: cs)
  | plain {p c : Char} {ps cs : List Char} (hescape : p ≠ escape) (hany : p ≠ '%')
      (hone : p ≠ '_') (hsame : same p c = true) (h : Like same escape ps cs) :
      Like same escape (p :: ps) (c :: cs)

section Reading

variable {same : Char → Char → Bool} {escape : Char} {ps cs : List Char}

theorem like_nil : Like same escape [] cs ↔ cs = [] := by
  constructor
  · intro h
    cases h
    rfl
  · intro h
    rw [h]
    exact .done

theorem not_like_dangling : ¬ Like same escape [escape] cs := by
  intro h
  cases h with
  | any _ hany _ => exact hany rfl
  | one hone _ => exact hone rfl
  | plain hescape _ _ _ _ => exact hescape rfl

theorem like_escaped {q : Char} : Like same escape (escape :: q :: ps) cs ↔
    ∃ c rest, cs = c :: rest ∧ same q c = true ∧ Like same escape ps rest := by
  constructor
  · intro h
    cases h with
    | escaped hsame h => exact ⟨_, _, rfl, hsame, h⟩
    | any _ hany _ => exact absurd rfl hany
    | one hone _ => exact absurd rfl hone
    | plain hescape _ _ _ _ => exact absurd rfl hescape
  · rintro ⟨c, rest, rfl, hsame, h⟩
    exact .escaped hsame h

theorem like_any (hany : '%' ≠ escape) : Like same escape ('%' :: ps) cs ↔
    ∃ skipped rest, cs = skipped ++ rest ∧ Like same escape ps rest := by
  constructor
  · intro h
    cases h with
    | escaped _ _ => exact absurd rfl hany
    | any skipped _ h => exact ⟨skipped, _, rfl, h⟩
    | plain _ hany _ _ _ => exact absurd rfl hany
  · rintro ⟨skipped, rest, rfl, h⟩
    exact .any skipped hany h

theorem like_one (hone : '_' ≠ escape) : Like same escape ('_' :: ps) cs ↔
    ∃ c rest, cs = c :: rest ∧ Like same escape ps rest := by
  constructor
  · intro h
    cases h with
    | escaped _ _ => exact absurd rfl hone
    | one _ h => exact ⟨_, _, rfl, h⟩
    | plain _ _ hone _ _ => exact absurd rfl hone
  · rintro ⟨c, rest, rfl, h⟩
    exact .one hone h

theorem like_plain {p : Char} (hescape : p ≠ escape) (hany : p ≠ '%') (hone : p ≠ '_') :
    Like same escape (p :: ps) cs ↔
      ∃ c rest, cs = c :: rest ∧ same p c = true ∧ Like same escape ps rest := by
  constructor
  · intro h
    cases h with
    | escaped _ _ => exact absurd rfl hescape
    | any _ _ _ => exact absurd rfl hany
    | one _ _ => exact absurd rfl hone
    | plain _ _ _ hsame h => exact ⟨_, _, rfl, hsame, h⟩
  · rintro ⟨c, rest, rfl, hsame, h⟩
    exact .plain hescape hany hone hsame h

/-! ## Matching -/

theorem matchesPattern_cons {α : Type} (same : α → α → Bool) (any one escape : α → Bool) (p : α)
    (ps cs : List α) : matchesPattern same any one escape (p :: ps) cs =
      if escape p then
        match ps, cs with
        | q :: qs, c :: rest => same q c && matchesPattern same any one escape qs rest
        | _, _ => false
      else if any p then matchesPattern.anyTail (matchesPattern same any one escape ps) cs
      else
        match cs with
        | [] => false
        | c :: rest => (one p || same p c) && matchesPattern same any one escape ps rest :=
  matchesPattern.eq_def same any one escape (p :: ps) cs

theorem anyTail_eq_true {α : Type} {test : List α → Bool} {as : List α} :
    matchesPattern.anyTail test as = true ↔
      ∃ skipped rest, as = skipped ++ rest ∧ test rest = true := by
  induction as with
  | nil =>
    rw [matchesPattern.anyTail]
    constructor
    · intro h
      exact ⟨[], [], rfl, h⟩
    · rintro ⟨skipped, rest, he, h⟩
      rw [(List.append_eq_nil_iff.mp he.symm).2] at h
      exact h
  | cons a as ih =>
    rw [matchesPattern.anyTail, Bool.or_eq_true, ih]
    constructor
    · rintro (h | ⟨skipped, rest, rfl, h⟩)
      · exact ⟨[], a :: as, rfl, h⟩
      · exact ⟨a :: skipped, rest, rfl, h⟩
    · rintro ⟨skipped, rest, he, h⟩
      cases skipped with
      | nil =>
        rw [show rest = a :: as from he.symm] at h
        exact .inl h
      | cons b skipped =>
        cases he
        exact .inr ⟨skipped, rest, rfl, h⟩

/-- The matching function finds out whether characters match a pattern. -/
theorem matchesPattern_iff : (ps cs : List Char) →
    (matchesPattern same (· == '%') (· == '_') (· == escape) ps cs = true ↔
      Like same escape ps cs)
  | [], cs => by
    rw [like_nil, matchesPattern, List.isEmpty_iff]
  | p :: ps, cs => by
    rw [matchesPattern_cons]
    by_cases hescape : p = escape
    · rw [if_pos (beq_iff_eq.mpr hescape), hescape]
      cases ps with
      | nil => simp [not_like_dangling]
      | cons q qs =>
        rw [like_escaped]
        cases cs with
        | nil => simp
        | cons c rest => simp [matchesPattern_iff qs rest]
    · rw [if_neg (by simpa using hescape)]
      by_cases hany : p = '%'
      · rw [if_pos (beq_iff_eq.mpr hany), hany, like_any (hany ▸ hescape), anyTail_eq_true]
        simp only [matchesPattern_iff ps]
      · rw [if_neg (by simpa using hany)]
        by_cases hone : p = '_'
        · rw [hone, like_one (hone ▸ hescape)]
          cases cs with
          | nil => simp
          | cons c rest => simp [matchesPattern_iff ps rest]
        · rw [like_plain hescape hany hone]
          cases cs with
          | nil => simp
          | cons c rest => simp [hone, matchesPattern_iff ps rest]

end Reading

theorem anyTail_map {α β : Type} (f : α → β) (test : List β → Bool) (as : List α) :
    matchesPattern.anyTail test (as.map f) =
      matchesPattern.anyTail (fun rest => test (rest.map f)) as := by
  induction as with
  | nil => rfl
  | cons a as ih =>
    rw [List.map_cons, matchesPattern.anyTail, matchesPattern.anyTail, ih]
    rfl

theorem matchesPattern_map {α β : Type} (f : α → β) (same : β → β → Bool)
    (any one escape : β → Bool) : (ps cs : List α) →
    matchesPattern same any one escape (ps.map f) (cs.map f) =
      matchesPattern (fun p c => same (f p) (f c)) (fun p => any (f p)) (fun p => one (f p))
        (fun p => escape (f p)) ps cs
  | [], cs => by
    rw [List.map_nil, matchesPattern, matchesPattern, List.isEmpty_map]
  | p :: ps, cs => by
    rw [List.map_cons, matchesPattern_cons, matchesPattern_cons, anyTail_map,
      funext (matchesPattern_map f same any one escape ps)]
    cases cs with
    | nil => cases ps <;> rfl
    | cons c rest =>
      have hafter := matchesPattern_map f same any one escape ps rest
      cases ps with
      | nil => simp only [List.map_cons, List.map_nil, ← hafter]
      | cons q qs =>
        have hafter' := matchesPattern_map f same any one escape qs rest
        simp only [List.map_cons, hafter', ← hafter]

/-! ## Escaped texts -/

def escapedChar (escape c : Char) : List Char :=
  if c = escape ∨ c = '%' ∨ c = '_' then [escape, c] else [c]

/-- The three replacements do not disturb each other, because no replacement writes a character
that a later one replaces. -/
theorem escapeLikeChars_eq {escape : Char} (hany : '%' ≠ escape) (hone : '_' ≠ escape)
    (cs : List Char) : escapeLikeChars escape cs = cs.flatMap (escapedChar escape) := by
  show replaceChars '%' [escape, '%'] (replaceChars '_' [escape, '_']
    (replaceChars escape [escape, escape] cs)) = _
  rw [replaceChars, replaceChars, replaceChars, List.flatMap_assoc, List.flatMap_assoc]
  refine List.flatMap_congr fun c _ => ?_
  unfold escapedChar
  by_cases hc : c = escape
  · simp [hc, hany.symm, hone.symm]
  · by_cases hc' : c = '_'
    · simp [hc', hone, hany.symm]
    · by_cases hc'' : c = '%'
      · simp [hc'', hany]
      · simp [hc, hc', hc'']

section Escaped

variable {same : Char → Char → Bool} {escape : Char}

theorem like_escapedChar (p : Char) {ps cs : List Char} :
    Like same escape (escapedChar escape p ++ ps) cs ↔
      ∃ c rest, cs = c :: rest ∧ same p c = true ∧ Like same escape ps rest := by
  unfold escapedChar
  by_cases hp : p = escape ∨ p = '%' ∨ p = '_'
  · rw [if_pos hp]
    exact like_escaped
  · rw [if_neg hp]
    obtain ⟨hescape, hp⟩ := not_or.mp hp
    obtain ⟨hany', hone'⟩ := not_or.mp hp
    exact like_plain hescape hany' hone'

/-- An escaped text stands for itself, before any pattern. -/
theorem like_escapeLikeChars (hany : '%' ≠ escape) (hone : '_' ≠ escape) (s : List Char)
    {ps cs : List Char} :
    Like same escape (escapeLikeChars escape s ++ ps) cs ↔
      ∃ found rest, cs = found ++ rest ∧ List.Forall₂ (fun p c => same p c = true) s found ∧
        Like same escape ps rest := by
  rw [escapeLikeChars_eq hany hone]
  induction s generalizing cs with
  | nil =>
    constructor
    · intro h
      exact ⟨[], cs, rfl, .nil, h⟩
    · rintro ⟨found, rest, rfl, hfound, h⟩
      cases hfound
      exact h
  | cons p s ih =>
    rw [List.flatMap_cons, List.append_assoc, like_escapedChar]
    constructor
    · rintro ⟨c, rest, rfl, hsame, h⟩
      obtain ⟨found, rest, rfl, hfound, h⟩ := ih.mp h
      exact ⟨c :: found, rest, rfl, .cons hsame hfound, h⟩
    · rintro ⟨found, rest, rfl, hfound, h⟩
      cases hfound with
      | cons hsame hfound => exact ⟨_, _, rfl, hsame, ih.mpr ⟨_, _, rfl, hfound, h⟩⟩

/-- A text occurs in another, character by character alike. -/
def Occurs (same : Char → Char → Bool) (s t : String) : Prop :=
  ∃ before found after, t.toList = before ++ (found ++ after) ∧
    List.Forall₂ (fun p c => same p c = true) s.toList found

theorem occurs_empty (same : Char → Char → Bool) (t : String) : Occurs same "" t :=
  ⟨[], [], t.toList, rfl, .nil⟩

theorem toList_containsPattern (escape : Char) (s : String) :
    (containsPattern escape s).toList =
      '%' :: (escapeLikeChars escape (trim s).toList ++ ['%']) := by
  simp [containsPattern, escapeLike, trim]

/-- The pattern of a text matches the texts where it occurs, without the white space at its
ends. -/
theorem like_containsPattern (hany : '%' ≠ escape) (hone : '_' ≠ escape) (s t : String) :
    Like same escape (containsPattern escape s).toList t.toList ↔ Occurs same (trim s) t := by
  rw [toList_containsPattern, like_any hany]
  simp only [like_escapeLikeChars hany hone]
  constructor
  · rintro ⟨before, _, ht, found, after, rfl, hfound, _⟩
    exact ⟨before, found, after, ht, hfound⟩
  · rintro ⟨before, found, after, ht, hfound⟩
    refine ⟨before, found ++ after, ht, found, after, rfl, hfound, ?_⟩
    exact (like_any hany).mpr ⟨after, [], (List.append_nil after).symm, .done⟩

end Escaped

end Text
end TableSearch
