/-
What it means that a row matches search parameters.

The meaning does not know of predicates or statements.  Every filter reads its path from
the row, as `Place.read` follows it, and accepts what stands there or not.  A predicate
that was built from filters is true exactly where they all accept:
`truth_predicateOf`.
-/
import TableSearch.Proofs.Database.Navigation
import TableSearch.Proofs.Filter.Key
import TableSearch.Proofs.Sql.Condition
import TableSearch.Search.Plan

namespace TableSearch

namespace Filter

/-- Whether a filter accepts what stands at its path, under the type of the column. -/
def accepts (m : Meaning) (f : Filter) (x : Operand) (type : ColumnType) : Bool :=
  match f.operator with
  | .eq =>
      if f.value.isNull then x.cell.isNull else m.compare .eq x f.value == .yes
  | .notEq =>
      if f.value.isNull then !x.cell.isNull else m.compare .notEq x f.value == .yes
  | .gt => m.compare .gt x f.value == .yes
  | .gte => m.compare .gte x f.value == .yes
  | .lt => m.compare .lt x f.value == .yes
  | .lte => m.compare .lte x f.value == .yes
  | .like =>
      match f.value.patternText? with
      | some text =>
          m.like (type != .text) Predicate.likeEscape x.cell
            (.text (Text.containsPattern Predicate.likeEscape text)) == .yes
      | none => false
  | .null => x.cell.isNull
  | .notNull => !x.cell.isNull
  | .isIn =>
      match f.value with
      | .list items => items.any fun v => m.compare .eq x v == .yes
      | _ => false

theorem value_of_parse {entry : String × Value} {f : Filter} (h : Filter.parse entry = .ok f) :
    f.value = entry.2 := by
  obtain ⟨_, _, _, _, rfl⟩ := parse_eq_ok.mp h
  rfl

theorem key_of_parse {entry : String × Value} {f : Filter} (h : Filter.parse entry = .ok f) :
    Filter.parseKey entry.1 = .ok (f.operator, f.path) := by
  obtain ⟨_, _, hkey, hblank, rfl⟩ := parse_eq_ok.mp h
  exact parseKey_eq_ok.mpr ⟨hkey, hblank⟩

def holdsAt (m : Meaning) (d : Database) (r : Registry) (e : Entity) (p : Place) (f : Filter) :
    Bool :=
  match p.read m d r e f.segments with
  | some (x, type) => f.accepts m x type
  | none => false

end Filter

namespace SearchParams

/-- Whether a row matches: every entry is a filter that holds. -/
def holdsAt (m : Meaning) (d : Database) (r : Registry) (e : Entity) (p : Place)
    (params : SearchParams) : Bool :=
  params.entries.all fun entry =>
    match Filter.parse entry with
    | .ok f => f.holdsAt m d r e p
    | .error _ => false

/-- The columns of an entity's table, and the cells of the rows that match; none when there
is no such table. -/
def answer (m : Meaning) (d : Database) (r : Registry) (e : Entity) (params : SearchParams) :
    Option (List Column × List (List Cell)) :=
  (d.table? e.table).map fun t =>
    (t.columns,
      (t.rows.filter fun row => params.holdsAt m d r e ⟨t, some row⟩).map Row.cells)

end SearchParams

namespace Predicate

/-! ## Single filters -/

theorem ordering_eq_ok {path : AttributePath} {op : Comparison} {value : Value} {p : Predicate} :
    ordering path op value = .ok p ↔
      path.type.orders value = true ∧ p = .compare path op value := by
  unfold ordering
  by_cases h : path.type.orders value = true
  · simp [h, eq_comm]
  · simp [h]

theorem containing_eq_ok {path : AttributePath} {value : Value} {p : Predicate} :
    containing path value = .ok p ↔ ∃ text, value.patternText? = some text ∧
      path.type.matchesText value = true ∧
        p = .like path (Text.containsPattern likeEscape text) likeEscape := by
  unfold containing
  cases htext : value.patternText? with
  | none => simp
  | some text =>
    by_cases h : path.type.matchesText value = true
    · simp [h, eq_comm]
    · simp [h]

theorem membership_eq_ok {path : AttributePath} {value : Value} {p : Predicate} :
    membership path value = .ok p ↔
      ∃ items, value = .list items ∧ (∀ v ∈ items, v.isList = false) ∧ p = .isIn path items := by
  cases value with
  | list items =>
    by_cases hany : items.any Value.isList = true
    · rw [membership, if_pos hany]
      constructor
      · intro h
        cases h
      · rintro ⟨_, he, hno, _⟩
        cases he
        obtain ⟨v, hv, hlist⟩ := List.any_eq_true.mp hany
        rw [hno v hv] at hlist
        cases hlist
    · have hno : ∀ v ∈ items, v.isList = false := by simpa using hany
      rw [membership, if_neg hany]
      constructor
      · intro h
        exact ⟨items, rfl, hno, (Except.ok.inj h).symm⟩
      · rintro ⟨_, he, _, rfl⟩
        cases he
        rfl
  | null => simp [membership]
  | bool b => simp [membership]
  | int n => simp [membership]
  | float x => simp [membership]
  | text s => simp [membership]

theorem not_isList_of_orders {type : ColumnType} {value : Value} (h : type.orders value = true) :
    value.isList = false := by
  cases value with
  | list items =>
    have hno : type.orders (.list items) = false := by cases type <;> rfl
    rw [hno] at h
    cases h
  | null => rfl
  | bool b => rfl
  | int n => rfl
  | float x => rfl
  | text s => rfl

theorem truth_ordering {m : Meaning} {read : AttributePath → Operand} {path : AttributePath}
    {op : Comparison} {value : Value} {p : Predicate} (h : ordering path op value = .ok p) :
    p.truth m read = .yes ↔ (m.compare op (read path) value == .yes) = true := by
  rw [(ordering_eq_ok.mp h).2]
  exact beq_iff_eq.symm

theorem truth_ite {m : Meaning} {read : AttributePath → Operand} {p q : Predicate} {x y : Bool}
    (c : Bool) (hp : p.truth m read = .yes ↔ x = true) (hq : q.truth m read = .yes ↔ y = true) :
    (if c then p else q).truth m read = .yes ↔ (if c then x else y) = true := by
  cases c with
  | true => exact hp
  | false => exact hq

/-- The predicate of a filter says what the filter accepts. -/
theorem truth_ofOperator {m : Meaning} {read : AttributePath → Operand} {path : AttributePath}
    {f : Filter} {p : Predicate} (h : ofOperator path f.operator f.value = .ok p) :
    p.truth m read = .yes ↔ f.accepts m (read path) path.type = true := by
  have hbool : ∀ b : Bool, Truth.ofBool b = .yes ↔ b = true := by decide
  unfold Filter.accepts
  cases hop : f.operator with
  | eq =>
    rw [hop] at h
    cases h
    exact truth_ite _ (hbool _) beq_iff_eq.symm
  | notEq =>
    rw [hop] at h
    cases h
    exact truth_ite _ (hbool _) beq_iff_eq.symm
  | gt =>
    rw [hop] at h
    exact truth_ordering h
  | gte =>
    rw [hop] at h
    exact truth_ordering h
  | lt =>
    rw [hop] at h
    exact truth_ordering h
  | lte =>
    rw [hop] at h
    exact truth_ordering h
  | like =>
    rw [hop] at h
    obtain ⟨text, htext, _, rfl⟩ := containing_eq_ok.mp h
    rw [htext]
    exact beq_iff_eq.symm
  | null =>
    rw [hop] at h
    cases h
    exact hbool _
  | notNull =>
    rw [hop] at h
    cases h
    exact hbool _
  | isIn =>
    rw [hop] at h
    obtain ⟨items, hitems, _, rfl⟩ := membership_eq_ok.mp h
    rw [hitems, truth, Truth.any_eq_yes]
    simp

theorem paths_ofOperator {path : AttributePath} {op : Operator} {value : Value} {p : Predicate}
    (h : ofOperator path op value = .ok p) : p.paths = [path] := by
  cases op with
  | eq =>
    cases h
    split <;> rfl
  | notEq =>
    cases h
    split <;> rfl
  | gt => rw [(ordering_eq_ok.mp h).2, paths]
  | gte => rw [(ordering_eq_ok.mp h).2, paths]
  | lt => rw [(ordering_eq_ok.mp h).2, paths]
  | lte => rw [(ordering_eq_ok.mp h).2, paths]
  | like =>
    obtain ⟨text, _, _, rfl⟩ := containing_eq_ok.mp h
    rfl
  | null =>
    cases h
    rfl
  | notNull =>
    cases h
    rfl
  | isIn =>
    obtain ⟨items, _, _, rfl⟩ := membership_eq_ok.mp h
    rfl

/-- Only equalities bind lists. -/
theorem values_ofOperator {path : AttributePath} {op : Operator} {value : Value} {p : Predicate}
    (h : ofOperator path op value = .ok p) (hlist : op = .eq ∨ op = .notEq → value.isList = false) :
    ∀ v ∈ p.values, v.isList = false := by
  have hsingle : ∀ w : Value, w.isList = false → ∀ v ∈ [w], v.isList = false := by
    intro w hw v hv
    rw [List.mem_singleton.mp hv]
    exact hw
  have hcompare : ∀ {op : Comparison}, ordering path op value = .ok p →
      ∀ v ∈ p.values, v.isList = false := by
    intro op h
    obtain ⟨horders, rfl⟩ := ordering_eq_ok.mp h
    exact hsingle value (not_isList_of_orders horders)
  cases op with
  | eq =>
    cases h
    split
    · exact fun v hv => absurd hv List.not_mem_nil
    · exact hsingle value (hlist (.inl rfl))
  | notEq =>
    cases h
    split
    · exact fun v hv => absurd hv List.not_mem_nil
    · exact hsingle value (hlist (.inr rfl))
  | gt => exact hcompare h
  | gte => exact hcompare h
  | lt => exact hcompare h
  | lte => exact hcompare h
  | like =>
    obtain ⟨text, _, _, rfl⟩ := containing_eq_ok.mp h
    exact hsingle _ rfl
  | null =>
    cases h
    exact fun v hv => absurd hv List.not_mem_nil
  | notNull =>
    cases h
    exact fun v hv => absurd hv List.not_mem_nil
  | isIn =>
    obtain ⟨items, _, hitems, rfl⟩ := membership_eq_ok.mp h
    exact hitems

/-! ## All filters -/

theorem mem_pathsOf {path : AttributePath} {ps : List Predicate} :
    path ∈ pathsOf ps ↔ ∃ p ∈ ps, path ∈ p.paths := by
  induction ps with
  | nil => simp [pathsOf]
  | cons p rest ih => rw [pathsOf, List.mem_append, ih, List.exists_mem_cons_iff]

theorem mem_valuesOf {v : Value} {ps : List Predicate} :
    v ∈ valuesOf ps ↔ ∃ p ∈ ps, v ∈ p.values := by
  induction ps with
  | nil => simp [valuesOf]
  | cons p rest ih => rw [valuesOf, List.mem_append, ih, List.exists_mem_cons_iff]

theorem mem_paths_all {path : AttributePath} {ps : List Predicate} :
    path ∈ (all ps).paths ↔ ∃ p ∈ ps, path ∈ p.paths := by
  unfold all
  split
  · simp
  · exact mem_pathsOf

theorem mem_values_all {v : Value} {ps : List Predicate} :
    v ∈ (all ps).values ↔ ∃ p ∈ ps, v ∈ p.values := by
  unfold all
  split
  · simp
  · exact mem_valuesOf

def OfEntry (r : Registry) (root : Entity) (entry : String × Value) (p : Predicate) : Prop :=
  ∃ f path, Filter.parse entry = .ok f ∧ AttributePath.resolve r root f.path = .ok path ∧
    ofOperator path f.operator f.value = .ok p

theorem predicateOf_eq_ok {r : Registry} {root : Entity} {params : SearchParams} {p : Predicate}
    (h : Plan.predicateOf r root params = .ok p) :
    ∃ parts, List.Forall₂ (OfEntry r root) params.entries parts ∧ p = all parts := by
  obtain ⟨filters, hfilters, h⟩ := Success.bind_eq_ok.mp h
  obtain ⟨parts, hparts, h⟩ := Success.bind_eq_ok.mp h
  cases h
  have hboth := Success.forall₂_comp (Success.mapM_eq_ok.mp hfilters) (Success.mapM_eq_ok.mp hparts)
  refine ⟨parts, hboth.imp fun entry part hpart => ?_, rfl⟩
  obtain ⟨f, hf, hpart⟩ := hpart
  obtain ⟨path, hpath, hpart⟩ := Success.bind_eq_ok.mp hpart
  exact ⟨f, path, hf, hpath, hpart⟩

/-- Every path of a predicate that was built from parameters was resolved. -/
theorem resolved_of_predicateOf {r : Registry} {root : Entity} {params : SearchParams}
    {p : Predicate} (h : Plan.predicateOf r root params = .ok p) :
    ∀ path ∈ p.paths, ∃ s, AttributePath.resolve r root s = .ok path := by
  obtain ⟨parts, hparts, rfl⟩ := predicateOf_eq_ok h
  intro path hpath
  obtain ⟨part, hpart, hpath⟩ := mem_paths_all.mp hpath
  obtain ⟨entry, _, f, path', _, hresolve, hbuilt⟩ := Success.exists_of_mem_right hparts hpart
  rw [paths_ofOperator hbuilt, List.mem_singleton] at hpath
  exact ⟨f.path, by rw [hpath, hresolve]⟩

/-- When equalities hold no lists, no list is bound. -/
theorem values_predicateOf {r : Registry} {root : Entity} {params : SearchParams} {p : Predicate}
    (h : Plan.predicateOf r root params = .ok p)
    (hlist : ∀ entry ∈ params.entries, ∀ f, Filter.parse entry = .ok f →
      f.operator = .eq ∨ f.operator = .notEq → f.value.isList = false) :
    ∀ v ∈ p.values, v.isList = false := by
  obtain ⟨parts, hparts, rfl⟩ := predicateOf_eq_ok h
  intro v hv
  obtain ⟨part, hpart, hv⟩ := mem_values_all.mp hv
  obtain ⟨entry, hentry, f, path, hf, _, hbuilt⟩ := Success.exists_of_mem_right hparts hpart
  exact values_ofOperator hbuilt (hlist entry hentry f hf) v hv

/-- A predicate that was built from parameters is true where they match, if it reads its
paths where they lead. -/
theorem truth_predicateOf {m : Meaning} {d : Database} {r : Registry} {root : Entity}
    {params : SearchParams} {p : Predicate} (h : Plan.predicateOf r root params = .ok p)
    {place : Place} {read : AttributePath → Operand}
    (hread : ∀ path ∈ p.paths, ∃ q, place.along m d path.joins = some q ∧
      read path = q.operand path.column) :
    p.truth m read = .yes ↔ params.holdsAt m d r root place = true := by
  obtain ⟨parts, hparts, rfl⟩ := predicateOf_eq_ok h
  rw [truth_all_eq_yes, SearchParams.holdsAt, List.all_eq_true]
  refine (Success.forall_mem_iff hparts ?_).symm
  rintro entry part hpart ⟨f, path, hf, hresolve, hbuilt⟩
  have hmem : path ∈ (all parts).paths :=
    mem_paths_all.mpr ⟨part, hpart, by rw [paths_ofOperator hbuilt]; exact List.mem_cons_self⟩
  obtain ⟨q, hq, hoperand⟩ := hread path hmem
  have hwalk := Place.read_of_walk (m := m) (d := d) (AttributePath.walk_of_resolve hresolve) place
  rw [hq, Option.map_some, ← hoperand] at hwalk
  rw [hf]
  show f.holdsAt m d r root place = true ↔ _
  rw [Filter.holdsAt, Filter.segments, hwalk]
  exact (truth_ofOperator hbuilt).symm

end Predicate
end TableSearch
