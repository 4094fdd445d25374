/-
What filters build.

Every operator takes certain values on a column of a type, `Operator.Takes`, and a filter whose
path is resolved and whose value is taken becomes one test of that column.  `ofFilters_exact` says
that filters are built exactly when each of them fits, that a predicate holds their tests in their
order under one conjunction, and which fault is reported when one does not fit.
-/
import TableSearch.Proofs.Search.Matching

namespace TableSearch

variable {type : ColumnType} {value : Value} {path : AttributePath} {operator : Operator}

/-! ## Operators and values -/

/-- A value has an order with the values of a column: numbers with numbers, and otherwise a kind
with itself. -/
def Value.Ordered (value : Value) (type : ColumnType) : Prop :=
  ((type = .integer ∨ type = .real) ∧ (value.kind = .integer ∨ value.kind = .float)) ∨
    (type = .text ∧ value.kind = .string) ∨ (type = .boolean ∧ value.kind = .boolean)

/-- A value can be looked for in the text of a column. -/
def Value.Searched (value : Value) (type : ColumnType) : Prop :=
  ((type = .text ∨ type = .integer) ∧ value.kind ≠ .null ∧ value.kind ≠ .list) ∨
    (type = .real ∧ value.kind = .string)

def Value.Listed (value : Value) : Prop :=
  ∃ items, value = .list items ∧ ∀ item ∈ items, item.kind ≠ .list

def Operator.Takes (type : ColumnType) (value : Value) : Operator → Prop
  | .gt | .gte | .lt | .lte => value.Ordered type
  | .like => value.Searched type
  | .isIn => value.Listed
  | .eq | .notEq | .null | .notNull => True

def Operator.refusal (path : AttributePath) (value : Value) : Operator → QueryError
  | .like => .invalidPattern path.path value.kind path.type
  | .isIn => .invalidList path.path (if value.isList then .nested else .scalar value.kind)
  | _ => .notComparable path.path value.kind path.type

theorem Value.isList_iff : value.isList = true ↔ value.kind = .list := by
  cases value <;> simp [Value.isList, Value.kind]

theorem Value.isNull_iff : value.isNull = true ↔ value.kind = .null := by
  cases value <;> simp [Value.isNull, Value.kind]

theorem ColumnType.orders_iff : type.orders value = true ↔ value.Ordered type := by
  cases type <;> cases value <;> simp [ColumnType.orders, Value.Ordered, Value.kind]

/-- What can be looked for has a text. -/
theorem ColumnType.matchesText_iff :
    (∃ text, value.patternText? = some text ∧ type.matchesText value = true) ↔
      value.Searched type := by
  cases type <;> cases value <;>
    simp [ColumnType.matchesText, Value.patternText?, Value.Searched, Value.kind]

namespace Predicate

variable {p : Predicate} {err : QueryError}

/-! ## Tests of one column -/

inductive Leaf (path : AttributePath) : Operator → Value → Predicate → Prop where
  | eq {value : Value} (h : value.kind ≠ .null) : Leaf path .eq value (.compare path .eq value)
  | eqNull : Leaf path .eq .null (.isNull path)
  | notEq {value : Value} (h : value.kind ≠ .null) :
      Leaf path .notEq value (.compare path .notEq value)
  | notEqNull : Leaf path .notEq .null (.isNotNull path)
  | gt {value : Value} : Leaf path .gt value (.compare path .gt value)
  | gte {value : Value} : Leaf path .gte value (.compare path .gte value)
  | lt {value : Value} : Leaf path .lt value (.compare path .lt value)
  | lte {value : Value} : Leaf path .lte value (.compare path .lte value)
  | like {value : Value} {text : String} (h : value.patternText? = some text) :
      Leaf path .like value (.like path (Text.containsPattern likeEscape text) likeEscape)
  | null {value : Value} : Leaf path .null value (.isNull path)
  | notNull {value : Value} : Leaf path .notNull value (.isNotNull path)
  | isIn {items : List Value} : Leaf path .isIn (.list items) (.isIn path items)

theorem ordering_eq_error {op : Comparison} :
    ordering path op value = .error err ↔
      ¬ value.Ordered path.type ∧ err = .notComparable path.path value.kind path.type := by
  unfold ordering
  rw [← ColumnType.orders_iff]
  by_cases h : path.type.orders value = true
  · simp [h]
  · simp [h, eq_comm]

theorem containing_eq_error :
    containing path value = .error err ↔
      ¬ value.Searched path.type ∧ err = .invalidPattern path.path value.kind path.type := by
  unfold containing
  rw [← ColumnType.matchesText_iff]
  cases htext : value.patternText? with
  | none =>
    simp only [reduceCtorEq, false_and, exists_false, not_false_eq_true, true_and,
      Except.error.injEq]
    exact eq_comm
  | some text =>
    by_cases h : path.type.matchesText value = true
    · simp [h]
    · simp [h, eq_comm]

theorem listed_iff (path : AttributePath) : value.Listed ↔ ∃ p, membership path value = .ok p := by
  simp only [membership_eq_ok, Value.Listed, ne_eq, ← Value.isList_iff, Bool.not_eq_true]
  constructor
  · rintro ⟨items, hvalue, hitems⟩
    exact ⟨_, items, hvalue, hitems, rfl⟩
  · rintro ⟨_, items, hvalue, hitems, _⟩
    exact ⟨items, hvalue, hitems⟩

theorem membership_eq_error :
    membership path value = .error err ↔
      ¬ value.Listed ∧ err = Operator.isIn.refusal path value := by
  rw [listed_iff path]
  cases hresult : membership path value with
  | ok p => simp
  | error err' =>
    have herr : err' = Operator.isIn.refusal path value := by
      unfold membership at hresult
      split at hresult
      · split at hresult
        · cases hresult
          rfl
        · cases hresult
      · next hscalar =>
        cases hresult
        cases value with
        | list items => exact absurd rfl (hscalar items)
        | _ => rfl
    simp [herr, eq_comm]

theorem leaf_eq_iff :
    Leaf path .eq value p ↔ p = if value.isNull then .isNull path else .compare path .eq value := by
  constructor
  · intro h
    cases h with
    | eq hkind => rw [if_neg fun hnull => hkind (Value.isNull_iff.mp hnull)]
    | eqNull => rfl
  · rintro rfl
    by_cases hnull : value.isNull = true
    · rw [if_pos hnull]
      cases value with
      | null => exact .eqNull
      | _ => cases hnull
    · rw [if_neg hnull]
      exact .eq fun hkind => hnull (Value.isNull_iff.mpr hkind)

theorem leaf_notEq_iff :
    Leaf path .notEq value p ↔
      p = if value.isNull then .isNotNull path else .compare path .notEq value := by
  constructor
  · intro h
    cases h with
    | notEq hkind => rw [if_neg fun hnull => hkind (Value.isNull_iff.mp hnull)]
    | notEqNull => rfl
  · rintro rfl
    by_cases hnull : value.isNull = true
    · rw [if_pos hnull]
      cases value with
      | null => exact .notEqNull
      | _ => cases hnull
    · rw [if_neg hnull]
      exact .notEq fun hkind => hnull (Value.isNull_iff.mpr hkind)

/-- An operator makes a test of the values it takes. -/
theorem ofOperator_eq_ok :
    ofOperator path operator value = .ok p ↔
      operator.Takes path.type value ∧ Leaf path operator value p := by
  have hordering : ∀ {op : Comparison}, ordering path op value = .ok p ↔
      value.Ordered path.type ∧ p = .compare path op value := by
    intro op
    rw [ordering_eq_ok, ColumnType.orders_iff]
  cases operator with
  | eq =>
    show Except.ok _ = Except.ok p ↔ True ∧ _
    rw [leaf_eq_iff, Except.ok.injEq, true_and, eq_comm]
  | notEq =>
    show Except.ok _ = Except.ok p ↔ True ∧ _
    rw [leaf_notEq_iff, Except.ok.injEq, true_and, eq_comm]
  | gt =>
    exact hordering.trans (and_congr_right fun _ => ⟨fun h => h ▸ .gt, fun h => by cases h; rfl⟩)
  | gte =>
    exact hordering.trans (and_congr_right fun _ => ⟨fun h => h ▸ .gte, fun h => by cases h; rfl⟩)
  | lt =>
    exact hordering.trans (and_congr_right fun _ => ⟨fun h => h ▸ .lt, fun h => by cases h; rfl⟩)
  | lte =>
    exact hordering.trans (and_congr_right fun _ => ⟨fun h => h ▸ .lte, fun h => by cases h; rfl⟩)
  | like =>
    show containing path value = .ok p ↔ value.Searched path.type ∧ _
    rw [containing_eq_ok, ← ColumnType.matchesText_iff]
    constructor
    · rintro ⟨text, htext, hmatches, rfl⟩
      exact ⟨⟨text, htext, hmatches⟩, .like htext⟩
    · rintro ⟨⟨_, _, hmatches⟩, h⟩
      cases h with
      | like htext => exact ⟨_, htext, hmatches, rfl⟩
  | null =>
    show Except.ok _ = Except.ok p ↔ True ∧ _
    rw [Except.ok.injEq, true_and]
    exact ⟨fun h => h ▸ .null, fun h => by cases h; rfl⟩
  | notNull =>
    show Except.ok _ = Except.ok p ↔ True ∧ _
    rw [Except.ok.injEq, true_and]
    exact ⟨fun h => h ▸ .notNull, fun h => by cases h; rfl⟩
  | isIn =>
    show membership path value = .ok p ↔ value.Listed ∧ _
    rw [listed_iff path]
    constructor
    · intro h
      obtain ⟨items, rfl, _, rfl⟩ := membership_eq_ok.mp h
      exact ⟨⟨_, h⟩, .isIn⟩
    · rintro ⟨⟨q, hq⟩, h⟩
      cases h with
      | isIn =>
        obtain ⟨items, hvalue, _, rfl⟩ := membership_eq_ok.mp hq
        cases hvalue
        exact hq

theorem ofOperator_eq_error :
    ofOperator path operator value = .error err ↔
      ¬ operator.Takes path.type value ∧ err = operator.refusal path value := by
  have hfree : ∀ {q : Predicate}, Except.ok q = .error err ↔
      ¬ True ∧ err = operator.refusal path value := by
    intro q
    simp
  cases operator with
  | eq => exact hfree
  | notEq => exact hfree
  | null => exact hfree
  | notNull => exact hfree
  | gt => exact ordering_eq_error
  | gte => exact ordering_eq_error
  | lt => exact ordering_eq_error
  | lte => exact ordering_eq_error
  | like => exact containing_eq_error
  | isIn => exact membership_eq_error

/-! ## Filters -/

section Filters

variable {r : Registry} {root : Entity} {f : Filter} {fs : List Filter}

/-- The path of a filter is resolved, and its operator takes its value there. -/
def Fits (r : Registry) (root : Entity) (f : Filter) : Prop :=
  ∃ path, AttributePath.resolve r root f.path = .ok path ∧ f.operator.Takes path.type f.value

def Tested (r : Registry) (root : Entity) (f : Filter) (p : Predicate) : Prop :=
  ∃ path, AttributePath.resolve r root f.path = .ok path ∧
    f.operator.Takes path.type f.value ∧ Leaf path f.operator f.value p

/-- The fault of a filter: that of its path, or else that of its value. -/
def Faulted (r : Registry) (root : Entity) (f : Filter) (err : QueryError) : Prop :=
  AttributePath.resolve r root f.path = .error err ∨
    ∃ path, AttributePath.resolve r root f.path = .ok path ∧
      ¬ f.operator.Takes path.type f.value ∧ err = f.operator.refusal path f.value

theorem ofFilter_eq_ok : ofFilter r root f = .ok p ↔ Tested r root f p := by
  rw [ofFilter, Success.bind_eq_ok]
  simp only [ofOperator_eq_ok, Tested]

theorem ofFilter_eq_error : ofFilter r root f = .error err ↔ Faulted r root f err := by
  rw [ofFilter, Success.bind_eq_error]
  simp only [ofOperator_eq_error, Faulted]

theorem fits_iff : Fits r root f ↔ ∃ p, ofFilter r root f = .ok p := by
  constructor
  · rintro ⟨path, hpath, htakes⟩
    cases hresult : ofOperator path f.operator f.value with
    | ok p =>
      exact ⟨p, Success.bind_eq_ok.mpr ⟨path, hpath, hresult⟩⟩
    | error err => exact absurd htakes (ofOperator_eq_error.mp hresult).1
  · rintro ⟨p, hp⟩
    obtain ⟨path, hpath, htakes, _⟩ := ofFilter_eq_ok.mp hp
    exact ⟨path, hpath, htakes⟩

end Filters

/-! ## Trees -/

mutual

def leaves : Predicate → List Predicate
  | .and parts => leavesOf parts
  | p => [p]

def leavesOf : List Predicate → List Predicate
  | [] => []
  | p :: rest => p.leaves ++ leavesOf rest

end

/-- A test that has a meaning: no comparison with null, no comparison by order of what has none,
no list among the items of a list and no search in truth values. -/
def Sound : Predicate → Prop
  | .compare path op value =>
      value.kind ≠ .null ∧ (op = .eq ∨ op = .notEq ∨ value.Ordered path.type)
  | .like path _ _ => path.type ≠ .boolean
  | .isIn _ values => ∀ value ∈ values, value.kind ≠ .list
  | _ => True

theorem Leaf.leaves_eq (h : Leaf path operator value p) : p.leaves = [p] := by
  cases h <;> rfl

theorem leavesOf_eq {ps : List Predicate} (h : ∀ p ∈ ps, p.leaves = [p]) : leavesOf ps = ps := by
  induction ps with
  | nil => rfl
  | cons p rest ih =>
    obtain ⟨hp, hrest⟩ := List.forall_mem_cons.mp h
    rw [leavesOf, hp, ih hrest]
    rfl

theorem leaves_all {ps : List Predicate} (h : ∀ p ∈ ps, p.leaves = [p]) : (all ps).leaves = ps := by
  unfold all
  split
  · exact h _ List.mem_cons_self
  · exact leavesOf_eq h

theorem Leaf.sound (h : Leaf path operator value p) (htakes : operator.Takes path.type value) :
    p.Sound := by
  have hordered : ∀ {op : Comparison}, value.Ordered path.type →
      Sound (.compare path op value) := by
    intro op hordered
    refine ⟨fun hnull => ?_, .inr (.inr hordered)⟩
    simp [Value.Ordered, hnull] at hordered
  cases h with
  | eq hkind => exact ⟨hkind, .inl rfl⟩
  | notEq hkind => exact ⟨hkind, .inr (.inl rfl)⟩
  | gt => exact hordered htakes
  | gte => exact hordered htakes
  | lt => exact hordered htakes
  | lte => exact hordered htakes
  | like =>
    intro hboolean
    have hsearched : value.Searched path.type := htakes
    simp [Value.Searched, hboolean] at hsearched
  | isIn =>
    obtain ⟨items, hvalue, hitems⟩ := htakes
    cases hvalue
    exact hitems
  | eqNull => trivial
  | notEqNull => trivial
  | null => trivial
  | notNull => trivial

/-- Predicates are built exactly from filters that fit: their paths are resolved, and their
operators take their values in the columns that the paths lead to.  A predicate has the tests of its
filters in their order, under one conjunction unless there is only one, and each of them has a
meaning.  When a filter does not fit, the fault is that of the first one, and of its path rather
than its value. -/
theorem ofFilters_exact (r : Registry) (root : Entity) (fs : List Filter) :
    ((∃ p, ofFilters r root fs = .ok p) ↔ ∀ f ∈ fs, Fits r root f) ∧
    (∀ p, ofFilters r root fs = .ok p → List.Forall₂ (Tested r root) fs p.leaves ∧
      (fs = [] → p = matchAll) ∧ (fs.length = 1 → p.leaves = [p]) ∧
        (2 ≤ fs.length → p = .and p.leaves) ∧ ∀ leaf ∈ p.leaves, leaf.Sound) ∧
    ∀ err, ofFilters r root fs = .error err ↔ ∃ before f after, fs = before ++ f :: after ∧
      (∀ earlier ∈ before, Fits r root earlier) ∧ Faulted r root f err := by
  have hresult : ∀ {p}, ofFilters r root fs = .ok p ↔
      ∃ parts, List.Forall₂ (Tested r root) fs parts ∧ all parts = p := by
    intro p
    rw [ofFilters, Success.bind_eq_ok]
    simp only [Success.mapM_eq_ok, ofFilter_eq_ok, pure, Except.pure, Except.ok.injEq]
  refine ⟨?_, fun p hp => ?_, fun err => ?_⟩
  · simp only [fits_iff, ← Success.exists_mapM_eq_ok]
    constructor
    · rintro ⟨p, hp⟩
      obtain ⟨parts, hparts, _⟩ := Success.bind_eq_ok.mp hp
      exact ⟨parts, hparts⟩
    · rintro ⟨parts, hparts⟩
      exact ⟨all parts, Success.bind_eq_ok.mpr ⟨parts, hparts, rfl⟩⟩
  · obtain ⟨parts, hparts, rfl⟩ := hresult.mp hp
    have hleaves : (all parts).leaves = parts := by
      refine leaves_all fun part hpart => ?_
      obtain ⟨f, _, path, _, _, hleaf⟩ := Success.exists_of_mem_right hparts hpart
      exact hleaf.leaves_eq
    rw [hleaves]
    refine ⟨hparts, ?_, ?_, ?_, fun leaf hmem => ?_⟩
    · rintro rfl
      cases hparts
      rfl
    · intro hlength
      rw [hparts.length_eq] at hlength
      obtain ⟨part, rfl⟩ := List.length_eq_one_iff.mp hlength
      rfl
    · intro hlength
      rw [hparts.length_eq] at hlength
      match parts, hlength with
      | _ :: _ :: _, _ => rfl
    · obtain ⟨f, _, path, _, htakes, hleaf⟩ := Success.exists_of_mem_right hparts hmem
      exact hleaf.sound htakes
  · have herror : ofFilters r root fs = .error err ↔ fs.mapM (ofFilter r root) = .error err := by
      rw [ofFilters, Success.bind_eq_error]
      simp [pure, Except.pure]
    rw [herror, Success.mapM_eq_error]
    simp only [fits_iff, ofFilter_eq_error]
    constructor
    · rintro ⟨before, f, after, hsplit, hfault, hbefore⟩
      exact ⟨before, f, after, hsplit, hbefore, hfault⟩
    · rintro ⟨before, f, after, hsplit, hbefore, hfault⟩
      exact ⟨before, f, after, hsplit, hfault, hbefore⟩

def goods : Entity :=
  ((Entity.bare "goods" "goods").withColumn "price" .real).withColumn "note" .text

theorem ofFilters_exact_goods :
    (∃ p, ofFilters Keyed.empty goods [⟨"note", .notEq, .null⟩, ⟨"price", .gte, .int 5⟩] = .ok p ∧
      p = .and p.leaves ∧ ∀ leaf ∈ p.leaves, leaf.Sound) ∧
    ofFilters Keyed.empty goods
        [⟨"note", .notEq, .null⟩, ⟨"price", .like, .int 5⟩, ⟨"", .isIn, .null⟩] =
      .error (.invalidPattern "price" .integer .real) := by
  obtain ⟨hbuilt, htests, _⟩ :=
    ofFilters_exact Keyed.empty goods [⟨"note", .notEq, .null⟩, ⟨"price", .gte, .int 5⟩]
  obtain ⟨_, _, hfault⟩ := ofFilters_exact Keyed.empty goods
    [⟨"note", .notEq, .null⟩, ⟨"price", .like, .int 5⟩, ⟨"", .isIn, .null⟩]
  have hnote : AttributePath.resolve Keyed.empty goods "note" =
      .ok ⟨"note", [], none, "note", .text⟩ := by decide +kernel
  have hprice : AttributePath.resolve Keyed.empty goods "price" =
      .ok ⟨"price", [], none, "price", .real⟩ := by decide +kernel
  have hordered : (Value.int 5).Ordered .real := .inl ⟨.inr rfl, .inl rfl⟩
  have hsearched : ¬ (Value.int 5).Searched .real := by simp [Value.Searched, Value.kind]
  constructor
  · obtain ⟨p, hp⟩ := hbuilt.mpr (List.forall_mem_cons.mpr ⟨⟨_, hnote, trivial⟩,
      List.forall_mem_singleton.mpr ⟨_, hprice, hordered⟩⟩)
    obtain ⟨_, _, _, hmany, hsound⟩ := htests p hp
    exact ⟨p, hp, hmany (Nat.le_refl 2), hsound⟩
  · exact (hfault _).mpr ⟨[⟨"note", .notEq, .null⟩], _, _, rfl,
      List.forall_mem_singleton.mpr ⟨_, hnote, trivial⟩, .inr ⟨_, hprice, hsearched, rfl⟩⟩

end Predicate
end TableSearch
