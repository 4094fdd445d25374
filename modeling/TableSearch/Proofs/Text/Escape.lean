/-
Escaping, for every escape character.

Escaping is three replacements, one after the other.  With `%` or `_` for the escape character the
last ones replace what the first one wrote, and the pattern of a text no longer stands for it.  With
any other character they do not, and then the pattern stands for the text alone, so it also tells
which text was escaped: `escapesLiterally_iff`.
-/
import TableSearch.Proofs.Text.Like

namespace TableSearch
namespace Text

/-- Every escape character of a pattern has a character to take after it. -/
inductive Complete (escape : Char) : List Char → Prop where
  | done : Complete escape []
  | escaped {q : Char} {ps : List Char} (h : Complete escape ps) :
      Complete escape (escape :: q :: ps)
  | plain {p : Char} {ps : List Char} (hescape : p ≠ escape) (h : Complete escape ps) :
      Complete escape (p :: ps)

/-- An escaped text is a complete pattern that matches one text: the escaped one, without the white
space at its ends. -/
def EscapesLiterally (escape : Char) : Prop :=
  ∀ s : String, Complete escape (escapeLike escape s).toList ∧
    ∀ t : String, Like (· == ·) escape (escapeLike escape s).toList t.toList ↔ t = trim s

variable {same : Char → Char → Bool} {escape : Char} {ps cs : List Char}

/-- Only complete patterns match anything. -/
theorem Like.complete (h : Like same escape ps cs) : Complete escape ps := by
  induction h with
  | done => exact .done
  | escaped _ _ ih => exact .escaped ih
  | any _ hany _ ih => exact .plain hany ih
  | one hone _ ih => exact .plain hone ih
  | plain hescape _ _ _ _ ih => exact .plain hescape ih

theorem toList_escapeLike (escape : Char) (s : String) :
    (escapeLike escape s).toList = escapeLikeChars escape (trim s).toList := by
  simp [escapeLike, trim]

theorem like_escapeLike (hany : '%' ≠ escape) (hone : '_' ≠ escape) (s t : String) :
    Like (· == ·) escape (escapeLike escape s).toList t.toList ↔ t = trim s := by
  rw [toList_escapeLike, ← List.append_nil (escapeLikeChars _ _), like_escapeLikeChars hany hone,
    ← String.toList_inj]
  simp only [like_nil, beq_iff_eq, List.forall₂_eq_eq_eq]
  constructor
  · rintro ⟨found, rest, ht, rfl, rfl⟩
    rw [ht, List.append_nil]
  · intro ht
    exact ⟨t.toList, [], (List.append_nil _).symm, ht.symm, rfl⟩

theorem escapesLiterally_of_ne (hany : '%' ≠ escape) (hone : '_' ≠ escape) :
    EscapesLiterally escape := by
  intro s
  have hself := (like_escapeLike hany hone s (trim s)).mpr rfl
  exact ⟨hself.complete, like_escapeLike hany hone s⟩

/-- A wildcard that escapes is doubled twice, and its pattern stands for two of it. -/
theorem not_escapesLiterally {wildcard : Char} (h : wildcard = '%' ∨ wildcard = '_') :
    ¬ EscapesLiterally wildcard := by
  intro hliteral
  obtain ⟨-, hmatches⟩ := hliteral (String.singleton wildcard)
  have hpattern : (escapeLike wildcard (String.singleton wildcard)).toList =
      [wildcard, wildcard, wildcard, wildcard] := by
    rcases h with rfl | rfl <;> decide
  have hdouble : Like (· == ·) wildcard (escapeLike wildcard (String.singleton wildcard)).toList
      (String.ofList [wildcard, wildcard]).toList := by
    rw [hpattern, String.toList_ofList]
    exact .escaped (beq_self_eq_true _) (.escaped (beq_self_eq_true _) .done)
  have hsame := (hmatches _).mp hdouble
  rcases h with rfl | rfl <;> exact absurd hsame (by decide)

/-- A pattern that stands for one text tells which text it is. -/
theorem EscapesLiterally.eq_iff (h : EscapesLiterally escape) {s t : String} :
    escapeLike escape s = escapeLike escape t ↔ trim s = trim t := by
  constructor
  · intro hsame
    have hself := ((h s).2 (trim s)).mpr rfl
    rw [hsame] at hself
    exact ((h t).2 (trim s)).mp hself
  · intro htrim
    rw [← String.toList_inj, toList_escapeLike, toList_escapeLike, htrim]

/-- Escaping is literal with every escape character that is no wildcard, and with no other.  Texts
that are escaped alike are then the same between the white space at their ends. -/
theorem escapesLiterally_iff (escape : Char) :
    (EscapesLiterally escape ↔ escape ≠ '%' ∧ escape ≠ '_') ∧
      (escape ≠ '%' ∧ escape ≠ '_' → ∀ s t : String,
        escapeLike escape s = escapeLike escape t ↔ trim s = trim t) := by
  have hiff : EscapesLiterally escape ↔ escape ≠ '%' ∧ escape ≠ '_' := by
    constructor
    · intro h
      exact ⟨fun hany => not_escapesLiterally (.inl hany) h,
        fun hone => not_escapesLiterally (.inr hone) h⟩
    · rintro ⟨hany, hone⟩
      exact escapesLiterally_of_ne hany.symm hone.symm
  exact ⟨hiff, fun hother s t => (hiff.mpr hother).eq_iff⟩

theorem escapesLiterally_iff_bang :
    EscapesLiterally '!' ∧ ¬ EscapesLiterally '_' ∧
      escapeLike '!' "5!% off" ≠ escapeLike '!' "5!!% off" := by
  obtain ⟨hliteral, hinjective⟩ := escapesLiterally_iff '!'
  refine ⟨hliteral.mpr (by decide), fun h => ((escapesLiterally_iff '_').1.mp h).2 rfl, fun h => ?_⟩
  exact absurd ((hinjective (by decide) _ _).mp h) (by decide)

end Text
end TableSearch
