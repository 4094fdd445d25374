/-
Statements of searches, read back.

Drafting numbers the parameters in the order in which the text refers to them, and makes a join
before anything refers to its table, whatever the paths of a predicate lead to.  So the text of a
search reads as its statement, if none of the predicate's conjunctions has a single part:
`ofText?_select`.
-/
import TableSearch.Proofs.Sql.Draft
import TableSearch.Proofs.Sql.Recovery

namespace TableSearch

/-! ## Conjunctions -/

namespace Predicate

mutual

/-- No conjunction has a single part. -/
def isProper : Predicate → Bool
  | .and parts => parts.length != 1 && areProper parts
  | _ => true

def areProper : List Predicate → Bool
  | [] => true
  | p :: rest => p.isProper && areProper rest

end

theorem isProper_all {ps : List Predicate} (h : ∀ p ∈ ps, p.isProper = true) :
    (all ps).isProper = true := by
  have hall : areProper ps = true := by
    induction ps with
    | nil => rfl
    | cons p rest ih =>
      obtain ⟨hp, hrest⟩ := List.forall_mem_cons.mp h
      exact Bool.and_eq_true_iff.mpr ⟨hp, ih hrest⟩
  match ps with
  | [] => rfl
  | [p] => exact h p List.mem_cons_self
  | _ :: _ :: _ => exact hall

end Predicate

namespace Sql
namespace Draft

mutual

theorem isProper_condition (d : Draft) {p : Predicate} (h : p.isProper = true) :
    (d.condition p).1.isProper = true := by
  cases p with
  | and parts =>
    match parts with
    | [] => rfl
    | [_] => cases h
    | p :: next :: rest =>
      have hparts : Predicate.areProper (p :: next :: rest) = true := h
      exact areProper_conditions d hparts
  | isIn path items =>
    cases items with
    | nil => rfl
    | cons v rest => rfl
  | _ => rfl

theorem areProper_conditions (d : Draft) {ps : List Predicate}
    (h : Predicate.areProper ps = true) : Condition.areProper (d.conditions ps).1 = true := by
  cases ps with
  | nil => rfl
  | cons p rest =>
    obtain ⟨hp, hrest⟩ := Bool.and_eq_true_iff.mp h
    exact Bool.and_eq_true_iff.mpr
      ⟨isProper_condition d hp, areProper_conditions (d.condition p).2 hrest⟩

end

/-! ## Parameters and tables -/

mutual

/-- A condition numbers its parameters from the first free number on. -/
theorem places_condition (d : Draft) (p : Predicate) :
    (d.condition p).1.places = List.range' (d.params.length + 1) p.values.length := by
  have hcolumn := column_params d
  cases p with
  | and parts =>
    cases parts with
    | nil => rfl
    | cons p rest => exact placesOf_conditions d (p :: rest)
  | compare path op value =>
    show [(d.column path).2.params.length + 1] = _
    rw [hcolumn]
    rfl
  | like path pattern escape =>
    show [(d.column path).2.params.length + 1] = _
    rw [hcolumn]
    rfl
  | isNull path => rfl
  | isNotNull path => rfl
  | isIn path items =>
    cases items with
    | nil => rfl
    | cons v rest =>
      show List.range' ((d.column path).2.params.length + 1) _ = _
      rw [hcolumn]
      rfl

theorem placesOf_conditions (d : Draft) (ps : List Predicate) :
    Condition.placesOf (d.conditions ps).1 =
      List.range' (d.params.length + 1) (Predicate.valuesOf ps).length := by
  cases ps with
  | nil => rfl
  | cons p rest =>
    have hnext : (d.condition p).2.params.length + 1 = d.params.length + 1 + p.values.length := by
      rw [condition_draft, after, List.length_append]
      omega
    show (d.condition p).1.places ++ Condition.placesOf ((d.condition p).2.conditions rest).1 = _
    rw [places_condition d p, placesOf_conditions _ rest, hnext, List.range'_append_1,
      Predicate.valuesOf, List.length_append]

end

mutual

theorem refs_condition_le (d : Draft) (p : Predicate) :
    ∀ r ∈ (d.condition p).1.refs, r.table ≤ (d.condition p).2.joins.length := by
  have hcolumn : ∀ path, ∀ r ∈ [(d.column path).1], r.table ≤ (d.column path).2.joins.length :=
    fun path => List.forall_mem_singleton.mpr (tableOf_le _ path.owner)
  cases p with
  | and parts =>
    cases parts with
    | nil => exact nofun
    | cons p rest => exact refsOf_conditions_le d (p :: rest)
  | isIn path items =>
    cases items with
    | nil => exact nofun
    | cons v rest => exact hcolumn path
  | compare path op value => exact hcolumn path
  | like path pattern escape => exact hcolumn path
  | isNull path => exact hcolumn path
  | isNotNull path => exact hcolumn path

theorem refsOf_conditions_le (d : Draft) (ps : List Predicate) :
    ∀ r ∈ Condition.refsOf (d.conditions ps).1, r.table ≤ (d.conditions ps).2.joins.length := by
  cases ps with
  | nil => exact nofun
  | cons p rest =>
    have hgrown : (d.condition p).2.joins.length ≤
        ((d.condition p).2.conditions rest).2.joins.length := by
      rw [conditions_draft]
      exact (prefix_after _ _ _).length_le
    intro r hr
    rcases List.mem_append.mp hr with hr | hr
    · exact Nat.le_trans (refs_condition_le d p r hr) hgrown
    · exact refsOf_conditions_le (d.condition p).2 rest r hr

end

theorem optionalCondition_eq_none_or (d : Draft) (p : Predicate) :
    d.optionalCondition p = (none, d) ∧ p.values = [] ∨
      d.optionalCondition p = (some (d.condition p).1, (d.condition p).2) := by
  unfold optionalCondition
  by_cases h : p.matchesAll = true
  · rw [if_pos h, Predicate.matchesAll_iff.mp h]
    exact .inl ⟨rfl, rfl⟩
  · rw [if_neg h]
    exact .inr rfl

theorem refs_sortKeys_le (d : Draft) (terms : List ResolvedTerm) :
    ∀ k ∈ (d.sortKeys terms).1, k.ref.table ≤ (d.sortKeys terms).2.joins.length := by
  induction terms generalizing d with
  | nil => exact nofun
  | cons t rest ih =>
    have hgrown : (d.column t.path).2.joins.length ≤
        ((d.column t.path).2.sortKeys rest).2.joins.length := by
      rw [sortKeys_draft]
      exact (prefix_after _ _ _).length_le
    exact List.forall_mem_cons.mpr
      ⟨Nat.le_trans (tableOf_le (d.column t.path).2 t.path.owner) hgrown, ih (d.column t.path).2⟩

/-- A join is made when its parent is there. -/
def ParentsFirst (d : Draft) : Prop :=
  ∀ i (k : String × JoinClause), d.joins[i]? = some k → k.2.parent ≤ i

theorem parentsFirst_empty : empty.ParentsFirst := nofun

theorem ParentsFirst.addJoin {d : Draft} (h : d.ParentsFirst) (j : Join) :
    (d.addJoin j).ParentsFirst := by
  unfold Draft.addJoin
  split
  · exact h
  · intro i k hk
    rcases Nat.lt_or_ge i d.joins.length with hlt | hge
    · rw [List.getElem?_append_left hlt] at hk
      exact h i k hk
    · rw [List.getElem?_append_right hge] at hk
      rw [List.mem_singleton.mp (List.mem_of_getElem? hk)]
      exact Nat.le_trans (tableOf_le d j.parent) hge

theorem ParentsFirst.foldl_addJoin {d : Draft} (h : d.ParentsFirst) (js : List Join) :
    (js.foldl Draft.addJoin d).ParentsFirst := by
  induction js generalizing d with
  | nil => exact h
  | cons j rest ih => exact ih (h.addJoin j)

end Draft

/-! ## Statements -/

namespace Statement

variable {p : Predicate}

theorem conditionPlaces_draft (d : Draft) (p : Predicate) :
    conditionPlaces (d.optionalCondition p).1 =
      List.range' (d.params.length + 1) p.values.length := by
  rcases d.optionalCondition_eq_none_or p with ⟨h, hvalues⟩ | h
  · rw [h, hvalues]
    rfl
  · rw [h]
    exact d.places_condition p

theorem conditionRefs_le_draft (d : Draft) (p : Predicate) :
    ∀ r ∈ conditionRefs (d.optionalCondition p).1,
      r.table ≤ (d.optionalCondition p).2.joins.length := by
  rcases d.optionalCondition_eq_none_or p with ⟨h, _⟩ | h
  · rw [h]
    exact nofun
  · rw [h]
    exact d.refs_condition_le p

theorem isProper_of_draft (d : Draft) (h : p.isProper = true) :
    ∀ c ∈ (d.optionalCondition p).1, c.isProper = true := by
  rcases d.optionalCondition_eq_none_or p with ⟨he, _⟩ | he
  · rw [he]
    exact nofun
  · rw [he]
    rintro _ ⟨⟩
    exact d.isProper_condition h

theorem parents_select (table : String) (p : Predicate) (terms : List ResolvedTerm)
    (w : Option Window) :
    ∀ i (j : JoinClause), (select table p terms w).joins[i]? = some j → j.parent ≤ i := by
  intro i j hj
  rw [select_joins, List.getElem?_map] at hj
  obtain ⟨k, hk, rfl⟩ := Option.map_eq_some_iff.mp hj
  exact Draft.parentsFirst_empty.foldl_addJoin _ i k hk

theorem refs_select_le (table : String) (p : Predicate) (terms : List ResolvedTerm)
    (w : Option Window) :
    ∀ r ∈ conditionRefs (select table p terms w).condition ++
        (select table p terms w).order.map SortKey.ref,
      r.table ≤ (select table p terms w).joins.length := by
  have hsorted : ((Draft.empty.optionalCondition p).2.sortKeys terms).2.joins =
      (draft p terms w).joins := by
    rw [Draft.sortKeys_draft, Draft.optionalCondition_draft, Draft.after_after]
    rfl
  intro r hr
  rw [select_joins, List.length_map]
  rcases List.mem_append.mp hr with hr | hr
  · refine Nat.le_trans (conditionRefs_le_draft Draft.empty p r hr) ?_
    rw [Draft.optionalCondition_draft]
    exact (prefix_draft p terms w).length_le
  · obtain ⟨k, hk, rfl⟩ := List.mem_map.mp hr
    rw [← hsorted]
    exact Draft.refs_sortKeys_le _ terms k hk

theorem places_select (table : String) (p : Predicate) (terms : List ResolvedTerm)
    (w : Option Window) :
    conditionPlaces (select table p terms w).condition ++
        windowPlaces (select table p terms w).window =
      List.range' 1 (p.values.length + (Draft.windowValues w).length) := by
  have hcondition : conditionPlaces (select table p terms w).condition =
      List.range' 1 p.values.length := conditionPlaces_draft Draft.empty p
  have hwindow : (select table p terms w).window = w.map fun _ =>
      { limit := p.values.length + 1, offset := p.values.length + 2 } := by
    show ((((Draft.empty.optionalCondition p).2.sortKeys terms).2).window w).1 = _
    rw [Draft.window_places, params_before_window]
  have hbounds : windowPlaces (select table p terms w).window =
      List.range' (1 + p.values.length) (Draft.windowValues w).length := by
    rw [hwindow, Nat.add_comm 1]
    cases w <;> rfl
  rw [hcondition, hbounds, List.range'_append_1]

/-- What is drafted can be read, whatever the paths are. -/
theorem readable_select (table : String) (h : p.isProper = true) (terms : List ResolvedTerm)
    (w : Option Window) : (select table p terms w).Readable where
  parents := parents_select table p terms w
  refs := refs_select_le table p terms w
  proper := isProper_of_draft Draft.empty h
  places := by rw [places_select, List.length_range']

/-- The text of a search reads as its statement. -/
theorem ofText?_select (b : Backend) (table : String) (h : p.isProper = true)
    (terms : List ResolvedTerm) (w : Option Window) :
    ofText? b ((select table p terms w).sql b) (select table p terms w).params =
      some (select table p terms w) :=
  ofText?_sql b (readable_select table h terms w)

end Statement
end Sql
end TableSearch
