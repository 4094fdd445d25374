/-
Keys read and written.

No operator token holds a separator, so the first separator of a key ends its token, and a key
that was written from an operator and a path is read as these and no others.  A key that cannot
be read lacks its token or its path, or has a token of no operator.  `keys_unambiguous` says so of
single entries and of lists of them.
-/
import TableSearch.Proofs.Success
import TableSearch.Proofs.Text.Parts
import TableSearch.Filter.Key

namespace TableSearch
namespace Filter

variable {k token path : String} {operator : Operator} {value : Value} {err : QueryError}

/-! ## Tokens and paths -/

/-- The first separator of a key stands between this token and this path. -/
def Splits (k token path : String) : Prop :=
  k = token ++ "_" ++ path ∧ '_' ∉ token.toList

theorem cutFirst_eq_none : Text.cutFirst keySeparator k = none ↔ '_' ∉ k.toList :=
  Text.cutFirst_eq_none

theorem cutFirst_eq_some :
    Text.cutFirst keySeparator k = some (token, path) ↔ Splits k token path := by
  rw [Text.cutFirst_eq_some, Splits, ← String.toList_inj]
  simp [keySeparator]

theorem Splits.cutFirst (h : Splits k token path) :
    Text.cutFirst keySeparator k = some (token, path) :=
  cutFirst_eq_some.mpr h

theorem splits_key (operator : Operator) (path : String) :
    Splits (key operator path) operator.token path :=
  ⟨rfl, by cases operator <;> decide⟩

/-- A key falls apart in one way. -/
theorem Splits.unique {token' path' : String} (h : Splits k token path)
    (h' : Splits k token' path') : token = token' ∧ path = path' := by
  have hcut := h.cutFirst.symm.trans h'.cutFirst
  cases hcut
  exact ⟨rfl, rfl⟩

theorem isBlank_token (operator : Operator) : Text.isBlank operator.token = false := by
  cases operator <;> decide

/-! ## Reading a key -/

inductive Malformed (k : String) : Prop where
  | separator (h : '_' ∉ k.toList)
  | token {token path : String} (h : Splits k token path) (hblank : Text.isBlank token = true)
  | path {token path : String} (h : Splits k token path) (hblank : Text.isBlank path = true)

theorem Splits.malformed_iff (h : Splits k token path) :
    Malformed k ↔ Text.isBlank token = true ∨ Text.isBlank path = true := by
  constructor
  · intro hmalformed
    cases hmalformed with
    | separator hno =>
      have hcut := h.cutFirst
      rw [cutFirst_eq_none.mpr hno] at hcut
      cases hcut
    | token h' hblank =>
      obtain ⟨rfl, rfl⟩ := h.unique h'
      exact .inl hblank
    | path h' hblank =>
      obtain ⟨rfl, rfl⟩ := h.unique h'
      exact .inr hblank
  · rintro (hblank | hblank)
    · exact .token h hblank
    · exact .path h hblank

theorem not_malformed_key (h : Text.isBlank path = false) : ¬ Malformed (key operator path) := by
  rw [(splits_key operator path).malformed_iff, isBlank_token, h]
  simp

theorem parseKey_of_malformed (h : Malformed k) : parseKey k = .error (.malformedKey k) := by
  have hblanks : ∀ {token path : String}, Splits k token path →
      Text.isBlank token = true ∨ Text.isBlank path = true →
        parseKey k = .error (.malformedKey k) := by
    intro token path hsplits hblank
    unfold parseKey
    rw [hsplits.cutFirst]
    exact if_pos (Bool.or_eq_true_iff.mpr hblank)
  cases h with
  | separator hno =>
    unfold parseKey
    rw [cutFirst_eq_none.mpr hno]
  | token h hblank => exact hblanks h (.inl hblank)
  | path h hblank => exact hblanks h (.inr hblank)

/-- A key with a token and a path is judged by its token. -/
theorem Splits.parseKey_eq (h : Splits k token path) (hwell : ¬ Malformed k) :
    parseKey k = match Operator.ofToken? token with
      | none => .error (.unknownOperator token k)
      | some operator => .ok (operator, path) := by
  rw [h.malformed_iff, ← Bool.or_eq_true_iff] at hwell
  unfold parseKey
  rw [h.cutFirst]
  exact if_neg hwell

theorem exists_splits (h : ¬ Malformed k) : ∃ token path, Splits k token path := by
  cases hcut : Text.cutFirst keySeparator k with
  | none => exact absurd (.separator (cutFirst_eq_none.mp hcut)) h
  | some parts => exact ⟨parts.1, parts.2, cutFirst_eq_some.mp hcut⟩

/-- Exactly the keys that were written from an operator and a path are read. -/
theorem parseKey_eq_ok :
    parseKey k = .ok (operator, path) ↔ k = key operator path ∧ Text.isBlank path = false := by
  constructor
  · intro h
    have hwell : ¬ Malformed k := by
      intro hmalformed
      rw [parseKey_of_malformed hmalformed] at h
      cases h
    obtain ⟨token, path', hsplits⟩ := exists_splits hwell
    rw [hsplits.parseKey_eq hwell] at h
    cases htoken : Operator.ofToken? token with
    | none => simp [htoken] at h
    | some operator' =>
      simp only [htoken, Except.ok.injEq, Prod.mk.injEq] at h
      obtain ⟨rfl, rfl⟩ := h
      rw [hsplits.malformed_iff, not_or] at hwell
      refine ⟨?_, Bool.eq_false_iff.mpr hwell.2⟩
      rw [key, Operator.token_of_ofToken? htoken]
      exact hsplits.1
  · rintro ⟨rfl, hblank⟩
    rw [(splits_key operator path).parseKey_eq (not_malformed_key hblank),
      Operator.ofToken?_token]

/-- A key that is not read is malformed, or its token is that of no operator. -/
theorem parseKey_eq_error :
    parseKey k = .error err ↔ (Malformed k ∧ err = .malformedKey k) ∨
      (¬ Malformed k ∧ ∃ token path, Splits k token path ∧
        (∀ operator : Operator, operator.token ≠ token) ∧ err = .unknownOperator token k) := by
  by_cases hmalformed : Malformed k
  · simp [parseKey_of_malformed hmalformed, hmalformed, eq_comm]
  · obtain ⟨token, path, hsplits⟩ := exists_splits hmalformed
    rw [hsplits.parseKey_eq hmalformed]
    cases htoken : Operator.ofToken? token with
    | none =>
      have hno : ∀ operator : Operator, operator.token ≠ token := by
        rintro operator rfl
        rw [Operator.ofToken?_token] at htoken
        cases htoken
      constructor
      · intro h
        cases h
        exact .inr ⟨hmalformed, token, path, hsplits, hno, rfl⟩
      · rintro (⟨h, _⟩ | ⟨_, token', path', hsplits', _, rfl⟩)
        · exact absurd h hmalformed
        · rw [(hsplits.unique hsplits').1]
    | some operator =>
      constructor
      · intro h
        cases h
      · rintro (⟨h, _⟩ | ⟨_, token', path', hsplits', hno, _⟩)
        · exact absurd h hmalformed
        · rw [← (hsplits.unique hsplits').1] at hno
          exact absurd (Operator.token_of_ofToken? htoken) (hno operator)

theorem key_injective {operator' : Operator} {path' : String}
    (h : key operator path = key operator' path') : operator = operator' ∧ path = path' := by
  obtain ⟨htoken, hpath⟩ := (splits_key operator path).unique (h ▸ splits_key operator' path')
  exact ⟨Operator.token_injective htoken, hpath⟩

/-! ## Reading entries -/

theorem parse_eq_ok {f : Filter} :
    parse (k, value) = .ok f ↔ ∃ operator path, k = key operator path ∧
      Text.isBlank path = false ∧ f = { path, operator, value } := by
  constructor
  · intro h
    obtain ⟨⟨operator, path⟩, hkey, h⟩ := Success.bind_eq_ok.mp h
    obtain ⟨hk, hblank⟩ := parseKey_eq_ok.mp hkey
    dsimp only at h
    rw [make, if_neg (Bool.eq_false_iff.mp hblank)] at h
    cases h
    exact ⟨operator, path, hk, hblank, rfl⟩
  · rintro ⟨operator, path, hk, hblank, rfl⟩
    refine Success.bind_eq_ok.mpr ⟨(operator, path), parseKey_eq_ok.mpr ⟨hk, hblank⟩, ?_⟩
    exact if_neg (Bool.eq_false_iff.mp hblank)

theorem parse_key (h : Text.isBlank path = false) :
    parse (key operator path, value) = .ok { path, operator, value } :=
  parse_eq_ok.mpr ⟨operator, path, rfl, h, rfl⟩

/-- A key that is read has a path, so nothing else is wrong with its entry. -/
theorem parse_eq_error {entry : String × Value} :
    parse entry = .error err ↔ parseKey entry.1 = .error err := by
  unfold parse
  rw [Success.bind_eq_error]
  constructor
  · rintro (h | ⟨⟨operator, path⟩, hkey, h⟩)
    · exact h
    · simp [make, (parseKey_eq_ok.mp hkey).2] at h
  · exact .inl

/-- Filter keys are read exactly and in one way.  An entry is read when its key is the token of an
operator, a separator and a path that is not blank, and then it is the filter of these; so keys
that were written are read again, and differ where their operators or paths do.  Any other key is
malformed, when no separator is in it or a side of the first one is blank, or else its token is
unknown, and never is its path at fault.  Entries are read one by one in their order, and the
first at fault decides the error. -/
theorem keys_unambiguous :
    (∀ k value f, parse (k, value) = .ok f ↔ ∃ operator path,
      k = operator.token ++ "_" ++ path ∧ Text.isBlank path = false ∧
        f = { path, operator, value }) ∧
    (∀ operator path value, Text.isBlank path = false →
      parse (key operator path, value) = .ok { path, operator, value }) ∧
    (∀ operator operator' path path', key operator path = key operator' path' →
      operator = operator' ∧ path = path') ∧
    (∀ k value err, parse (k, value) = .error err ↔
      (Malformed k ∧ err = .malformedKey k) ∨
      (¬ Malformed k ∧ ∃ token path, Splits k token path ∧
        (∀ operator : Operator, operator.token ≠ token) ∧ err = .unknownOperator token k)) ∧
    (∀ k value path segment fault, parse (k, value) ≠ .error (.invalidPath path segment fault)) ∧
    (∀ entries fs, parseAll entries = .ok fs ↔
      List.Forall₂ (fun entry f => parse entry = .ok f) entries fs) ∧
    (∀ entries err, parseAll entries = .error err ↔ ∃ before entry after,
      entries = before ++ entry :: after ∧ parse entry = .error err ∧
        ∀ earlier ∈ before, ∃ f, parse earlier = .ok f) := by
  refine ⟨fun k value f => parse_eq_ok, fun operator path value h => parse_key h,
    fun operator operator' path path' h => key_injective h,
    fun k value err => parse_eq_error.trans parseKey_eq_error, ?_,
    fun entries fs => Success.mapM_eq_ok, fun entries err => Success.mapM_eq_error⟩
  intro k value path segment fault h
  rcases parseKey_eq_error.mp (parse_eq_error.mp h) with ⟨_, herr⟩ | ⟨_, _, _, _, _, herr⟩
  · cases herr
  · cases herr

/-- A path with separators of both kinds and spaces in it, a token in lower case, and a key without
a path before another fault. -/
theorem keys_unambiguous_spaced :
    Text.isBlank " a_b. c" = false ∧
      parse ("NOTEQ_ a_b. c", .null) = .ok ⟨" a_b. c", .notEq, .null⟩ ∧
      parse ("like_name", .null) = .error (.unknownOperator "like" "like_name") ∧
      parseAll [("NOTEQ_ a_b. c", .null), ("EQ_ ", .null), ("like_name", .null)] =
        .error (.malformedKey "EQ_ ") := by
  obtain ⟨_, hread, _, hfault, _, _, hfirst⟩ := keys_unambiguous
  have hblank : Text.isBlank " a_b. c" = false := by decide
  have hspaced : parse ("NOTEQ_ a_b. c", .null) = .ok ⟨" a_b. c", .notEq, .null⟩ :=
    hread .notEq " a_b. c" .null hblank
  have hlike : Splits "like_name" "like" "name" := ⟨by decide, by decide⟩
  have hbare : Splits "EQ_ " "EQ" " " := ⟨by decide, by decide⟩
  refine ⟨hblank, hspaced, (hfault _ _ _).mpr (.inr ⟨?_, "like", "name", hlike, ?_, rfl⟩),
    (hfirst _ _).mpr ⟨[("NOTEQ_ a_b. c", .null)], ("EQ_ ", .null), _, rfl, ?_, ?_⟩⟩
  · rw [hlike.malformed_iff]
    decide
  · intro operator
    cases operator <;> decide
  · exact (hfault _ _ _).mpr (.inl ⟨.path hbare (by decide), rfl⟩)
  · exact List.forall_mem_singleton.mpr ⟨_, hspaced⟩

end Filter
end TableSearch
