/-
Compiled searches find the rows that match.

The statement of an unsorted search joins the root table to the tables of all relations
that its filters use, each once, and tests the joined tuples.  When these relations lead to
one row at most, every row of the root table has one tuple, which holds what navigation
reads from the row, so the statement selects the rows that match and repeats none:
`run_select`.
-/
import TableSearch.Proofs.Database.Numbering
import TableSearch.Proofs.Predicate.Build
import TableSearch.Proofs.Sql.Readable
import TableSearch.Search.Repository

namespace TableSearch

open Sql (Statement)

namespace Predicate

theorem Leaf.isProper {path : AttributePath} {operator : Operator} {value : Value} {p : Predicate}
    (h : Leaf path operator value p) : p.isProper = true := by
  cases h <;> rfl

theorem isProper_of_predicateOf {r : Registry} {root : Entity} {params : SearchParams}
    {p : Predicate} (h : Plan.predicateOf r root params = .ok p) : p.isProper = true := by
  obtain ⟨parts, hparts, rfl⟩ := predicateOf_eq_ok h
  refine isProper_all fun part hpart => ?_
  obtain ⟨_, _, f, path, _, _, hbuilt⟩ := Success.exists_of_mem_right hparts hpart
  exact (ofOperator_eq_ok.mp hbuilt).2.isProper

end Predicate

namespace Plan

variable {r : Registry} {name : String} {params : SearchParams} {sort : SortOrder} {plan : Plan}

theorem make_eq_ok (h : Plan.make r name params sort = .ok plan) :
    r.get name = .ok plan.entity ∧ predicateOf r plan.entity params = .ok plan.predicate ∧
      List.Forall₂ (fun t term => resolveTerm r plan.entity t = .ok term) sort.terms
        plan.terms := by
  obtain ⟨root, hroot, h⟩ := Success.bind_eq_ok.mp h
  obtain ⟨predicate, hpredicate, h⟩ := Success.bind_eq_ok.mp h
  obtain ⟨terms, hterms, h⟩ := Success.bind_eq_ok.mp h
  cases h
  exact ⟨hroot, hpredicate, Success.mapM_eq_ok.mp hterms⟩

def paths (p : Plan) : List AttributePath :=
  p.predicate.paths ++ p.terms.map Sql.ResolvedTerm.path

theorem resolved_of_make (h : Plan.make r name params sort = .ok plan) :
    Sql.Draft.Resolved r plan.entity plan.paths := by
  obtain ⟨_, hpredicate, hterms⟩ := make_eq_ok h
  intro path hpath
  rcases List.mem_append.mp hpath with hpath | hpath
  · exact Predicate.resolved_of_predicateOf hpredicate path hpath
  · obtain ⟨term, hterm, rfl⟩ := List.mem_map.mp hpath
    obtain ⟨t, _, ht⟩ := Success.exists_of_mem_right hterms hterm
    obtain ⟨path, hresolve, ht⟩ := Success.bind_eq_ok.mp ht
    cases ht
    exact ⟨t.property, hresolve⟩

end Plan

namespace Sql

open Draft (Finds)

variable {m : Meaning} {d : Database} {root : Table} {joined : List Table} {p : Predicate}
  {terms : List ResolvedTerm} {w : Option Window} {table : String}

/-! ## Statements and their drafts -/

namespace Statement

theorem finds_select (h : (select table p terms w).tables m d = .ok (root, joined)) :
    (draft p terms w).Finds d joined := by
  have hjoined := (tables_eq_ok.mp h).2.2.1
  rw [select_joins, List.map_map] at hjoined
  exact hjoined

theorem product_select : (select table p terms w).product m root joined =
    ((draft p terms w).steps joined).foldl (joinStep m (root :: joined))
      (root.rows.map fun row => [some row]) := by
  rw [product, select_joins]
  rfl

/-- Joins to one row each give every row of the root table its one tuple. -/
theorem product_select_toOne
    (hone : ∀ step ∈ (draft p terms w).steps joined, step.1.ToOne m (root :: joined) step.2) :
    (select table p terms w).product m root joined = root.rows.map fun row =>
      Tuple.along m (root :: joined) [some row] ((draft p terms w).steps joined) := by
  rw [product_select, foldl_joinStep_toOne (Draft.rows_fitting root joined)
    (Draft.steps_aligned root) hone, List.map_map]
  rfl

/-- The statement tests whether its predicate is true. -/
theorem passes_select (hc : ∀ path ∈ p.paths, AttributePath.Chained none path.joins path.owner)
    (tables : List Table) (tuple : Tuple) :
    Condition.passes m (select table p terms w).params tables tuple
        (select table p terms w).condition =
      ((p.truth m fun path => ((draft p terms w).ref path).operand tables tuple) == .yes) := by
  have hparams : (select table p terms w).params = (draft p terms w).params := by
    rw [select_params]
    rfl
  rw [hparams]
  exact Draft.passes_optionalCondition _ p hc (prefix_draft p terms w) (List.prefix_append _ _)

/-- Without an order the tuples stay as they are. -/
theorem ordered_of_unsorted {s : Statement} (h : s.order = []) :
    s.ordered m root joined = s.matching m root joined := by
  unfold ordered
  rw [h]
  exact List.mergeSort_of_pairwise (List.pairwise_of_forall fun _ _ => rfl)

theorem rootCells_along (row : Row) (steps : List (JoinClause × Table)) :
    rootCells (Tuple.along m (root :: joined) [some row] steps) = row.cells := by
  have hgrown : [some row] <+: Tuple.along m (root :: joined) [some row] steps :=
    Tuple.prefix_along _ steps
  obtain ⟨rest, hrest⟩ := hgrown
  rw [← hrest]
  rfl

/-- What a statement selects once it is prepared. -/
theorem rows_eq_ok {s : Statement} {answer : List Column × List (List Cell)}
    (h : s.rows m d = .ok answer) : ∃ root joined, s.tables m d = .ok (root, joined) ∧
      answer = (root.columns,
        WindowParams.cut s.params ((s.ordered m root joined).map rootCells) s.window) := by
  obtain ⟨⟨root, joined⟩, htables, h⟩ := Success.bind_eq_ok.mp h
  obtain ⟨_, _, h⟩ := Success.bind_eq_ok.mp h
  cases h
  exact ⟨root, joined, htables, rfl⟩

/-- A prepared statement gives an answer when its patterns are short enough. -/
theorem exists_rows {s : Statement} (h : s.tables m d = .ok (root, joined))
    (hpatterns : s.params.any (Condition.isOverlong m) = false) :
    ∃ answer, s.rows m d = .ok answer := by
  have hcheck : s.checkPatterns m root joined = .ok () := by
    simp only [checkPatterns, hpatterns, Bool.false_and]
    rfl
  refine ⟨_, Success.bind_eq_ok.mpr ⟨_, h, Success.bind_eq_ok.mpr ⟨_, hcheck, rfl⟩⟩⟩

end Statement
end Sql

namespace Repository

theorem bind_eq_ok {params : List Value} :
    bind params = .ok () ↔ ∀ v ∈ params, v.isList = false := by
  unfold bind
  cases h : params.find? Value.isList with
  | none => simpa using List.find?_eq_none.mp h
  | some v =>
    constructor
    · intro e
      cases e
    · intro hno
      have hlist := List.find?_some h
      rw [hno v (List.mem_of_find?_eq_some h)] at hlist
      cases hlist

theorem run_serving_eq_ok {α : Type} {m : Meaning} {d : Database} {s : Statement}
    {answer : Meaning → Database → Statement → Except Sql.Unprepared α} {a : α} :
    run (.serving m d) s answer = .ok a ↔
      (∀ v ∈ s.params, v.isList = false) ∧ answer m d s = .ok a := by
  unfold run
  rw [Success.bind_eq_ok]
  constructor
  · rintro ⟨_, hbind, h⟩
    exact ⟨bind_eq_ok.mp hbind, Success.mapError_eq_ok.mp h⟩
  · rintro ⟨hbind, h⟩
    exact ⟨(), bind_eq_ok.mpr hbind, Success.mapError_eq_ok.mpr h⟩

end Repository

namespace Plan

open Sql (Draft ResolvedTerm)

variable {r : Registry} {name : String} {params : SearchParams} {plan : Plan} {m : Meaning}
  {d : Database} {root : Table} {joined : List Table}

/-- Everything that the unsorted statement of a plan asks of a database: its tables and
columns, and that the statement stays within the backend's limits. -/
structure Served (m : Meaning) (d : Database) (p : Plan) : Prop where
  root : (d.table? p.entity.table).isSome = true
  stored : ∀ path ∈ p.predicate.paths, path.stored d p.entity = true
  limits : (p.select none).checkLimits m.limits = .ok ()
  patterns : (p.select none).params.any (Sql.Condition.isOverlong m) = false

instance (m : Meaning) (d : Database) (p : Plan) : Decidable (p.Served m d) :=
  decidable_of_iff
    ((d.table? p.entity.table).isSome = true ∧
      (∀ path ∈ p.predicate.paths, path.stored d p.entity = true) ∧
      (p.select none).checkLimits m.limits = .ok () ∧
      (p.select none).params.any (Sql.Condition.isOverlong m) = false)
    ⟨fun ⟨h, h', h'', h'''⟩ => ⟨h, h', h'', h'''⟩,
      fun h => ⟨h.root, h.stored, h.limits, h.patterns⟩⟩

theorem terms_of_unsorted (h : Plan.make r name params .unsorted = .ok plan) : plan.terms = [] :=
  List.forall₂_nil_left_iff.mp (make_eq_ok h).2.2

theorem paths_of_unsorted (h : Plan.make r name params .unsorted = .ok plan) :
    plan.paths = plan.predicate.paths := by
  rw [paths, terms_of_unsorted h, List.map_nil, List.append_nil]

theorem order_of_unsorted (h : Plan.make r name params .unsorted = .ok plan)
    (w : Option Sql.Window) : (plan.select w).order = [] := by
  show ((Draft.empty.optionalCondition plan.predicate).2.sortKeys plan.terms).1 = []
  rw [terms_of_unsorted h]
  rfl

/-- The rows that an unsorted statement selects are those that match. -/
theorem ordered_select (hplan : Plan.make r name params .unsorted = .ok plan)
    (htables : (plan.select none).tables m d = .ok (root, joined))
    (hone : ∀ path ∈ plan.predicate.paths, path.toOne m d plan.entity = true) :
    ((plan.select none).ordered m root joined).map Statement.rootCells =
      (root.rows.filter fun row => params.holdsAt m d r plan.entity ⟨root, some row⟩).map
        Row.cells := by
  have hres := resolved_of_make hplan
  rw [← paths_of_unsorted hplan] at hone
  have hroot := (Statement.tables_eq_ok.mp htables).2.1
  have hfinds := Statement.finds_select htables
  have hsteps : ∀ step ∈ (Statement.draft plan.predicate plan.terms none).steps joined,
      step.1.ToOne m (root :: joined) step.2 :=
    Draft.steps_toOne (hres.sound _) hfinds fun j hj => by
      obtain ⟨_, path, hpath, hj⟩ := hj
      exact Draft.toOne_of_resolved hres hfinds hroot hpath (hone path hpath) j hj
  have hpasses : ∀ row, Sql.Condition.passes m (plan.select none).params (root :: joined)
      (Sql.Tuple.along m (root :: joined) [some row]
        ((Statement.draft plan.predicate plan.terms none).steps joined))
      (plan.select none).condition = params.holdsAt m d r plan.entity ⟨root, some row⟩ := by
    intro row
    have hpaths : ∀ path ∈ plan.predicate.paths, path ∈ plan.paths := fun path hpath =>
      List.mem_append_left _ hpath
    rw [select, Statement.passes_select fun path hpath => hres.chained path (hpaths path hpath),
      Bool.eq_iff_iff, beq_iff_eq]
    refine Predicate.truth_predicateOf (make_eq_ok hplan).2.1 fun path hpath => ?_
    exact Draft.operand_ref (hres.chained path (hpaths path hpath))
      (hres.declares _ (hpaths path hpath)) hfinds row
  rw [Statement.ordered_of_unsorted (order_of_unsorted hplan none), Statement.matching, select,
    Statement.product_select_toOne hsteps, List.filter_map, List.map_map]
  refine Eq.trans (congrArg _ (List.filter_congr fun row _ => hpasses row)) ?_
  exact List.map_congr_left fun row _ => Statement.rootCells_along row _

/-- A database that serves a plan can prepare its statement. -/
theorem exists_tables (hplan : Plan.make r name params .unsorted = .ok plan)
    (h : plan.Served m d) :
    ∃ root joined, (plan.select none).tables m d = .ok (root, joined) := by
  have hres := resolved_of_make hplan
  have hpaths := paths_of_unsorted hplan
  obtain ⟨root, hroot⟩ := Option.isSome_iff_exists.mp h.root
  have hstored : ∀ path ∈ plan.paths, root.stores d path.column path.joins = true := by
    intro path hpath
    have hpath := h.stored path (hpaths ▸ hpath)
    rw [AttributePath.stored, hroot] at hpath
    exact hpath
  have hsound := hres.sound (plan.predicate.values ++ Draft.windowValues none)
  obtain ⟨joined, hfinds⟩ := Draft.exists_finds hsound fun j hj => by
    obtain ⟨_, path, hpath, hj⟩ := hj
    exact Table.exists_of_stores (hstored path hpath) j hj
  have hsource : (root :: joined)[0]? = some root := rfl
  have hchecked := fun path hpath => Draft.checked_of_chained (hres.chained path hpath)
    (hres.declares _ hpath) hfinds hsource (hstored path hpath)
  refine ⟨root, joined, Statement.tables_eq_ok.mpr ⟨h.limits, hroot, ?_, ?_⟩⟩
  · rw [select, Statement.select_joins, List.map_map]
    exact hfinds
  intro ref href
  rw [Statement.refs, order_of_unsorted hplan none] at href
  rcases List.mem_append.mp href with href | href
  · rcases List.mem_append.mp href with href | href
    · rw [select, Statement.select_joins] at href
      refine Draft.checked_joinRefs hsound (fun j hj => ?_) ref href
      obtain ⟨_, path, hpath, hj⟩ := hj
      exact (hchecked path hpath).1 j hj
    · cases hcondition : (plan.select none).condition with
      | none =>
        rw [hcondition] at href
        cases href
      | some c =>
        rw [hcondition] at href
        obtain ⟨path, hpath, rfl⟩ := Draft.refs_optionalCondition Draft.empty
          (fun path hpath => hres.chained path (List.mem_append_left _ hpath))
          (Statement.prefix_draft plan.predicate plan.terms none) hcondition ref href
        exact (hchecked path (List.mem_append_left _ hpath)).2
  · cases href

/-- The text of a planned search reads as its statement. -/
theorem ofText?_select {sort : SortOrder} (hplan : Plan.make r name params sort = .ok plan)
    (b : Backend) (w : Option Sql.Window) :
    Statement.ofText? b ((plan.select w).sql b) (plan.select w).params = some (plan.select w) :=
  Statement.ofText?_select b _ (Predicate.isProper_of_predicateOf (make_eq_ok hplan).2.1) _ w

/-- Compiled searches are right.  The text of an unsorted search, with its parameters, reads as a
statement, in either dialect.  Where every relation of the filters leads to one row at most, this
statement selects the rows that match, as navigation from row to row says, once each and with the
root table's columns alone; and a database that has what the plan names gives such an answer. -/
theorem run_select (hplan : Plan.make r name params .unsorted = .ok plan)
    (hlist : ∀ entry ∈ params.entries, ∀ f, Filter.parse entry = .ok f →
      f.operator = .eq ∨ f.operator = .notEq → f.value.isList = false)
    (hone : ∀ path ∈ plan.predicate.paths, path.toOne m d plan.entity = true) (b : Backend) :
    ∃ s, Statement.ofText? b ((plan.select none).sql b) (plan.select none).params = some s ∧
      (∀ answer, Repository.run (.serving m d) s Statement.rows = .ok answer →
        params.answer m d r plan.entity = some answer) ∧
      (plan.Served m d →
        ∃ answer, Repository.run (.serving m d) s Statement.rows = .ok answer) := by
  refine ⟨plan.select none, ofText?_select hplan b none, ?_, ?_⟩
  · intro answer h
    obtain ⟨_, h⟩ := Repository.run_serving_eq_ok.mp h
    obtain ⟨root, joined, htables, rfl⟩ := Statement.rows_eq_ok h
    have hroot : d.table? plan.entity.table = some root := (Statement.tables_eq_ok.mp htables).2.1
    rw [SearchParams.answer, hroot, ordered_select hplan htables hone]
    rfl
  · intro h
    obtain ⟨root, joined, htables⟩ := exists_tables hplan h
    obtain ⟨answer, hanswer⟩ := Statement.exists_rows htables h.patterns
    refine ⟨answer, Repository.run_serving_eq_ok.mpr ⟨?_, hanswer⟩⟩
    rw [select, Statement.select_params]
    intro v hv
    rcases List.mem_append.mp hv with hv | hv
    · exact Predicate.values_predicateOf (make_eq_ok hplan).2.1 hlist v hv
    · cases hv

def people : Registry :=
  Keyed.empty.insert
    ((((Entity.bare "people" "people").withColumn "id" .integer).withColumn "name"
      .text).withAttribute "manager" (.relation "people" "manager_id" "id"))

/-- Ada answers to Ben, Cy to Ada, and Ben to nobody. -/
def office : Database where
  tables :=
    [{ name := "people",
       columns := [Column.declared "id" "INTEGER", Column.declared "name" "TEXT",
         Column.declared "manager_id" "INTEGER"],
       rows := [{ number := 1, cells := [.integer 1, Cell.ofText "Ada", .integer 2] },
         { number := 2, cells := [.integer 2, Cell.ofText "Ben", .null] },
         { number := 3, cells := [.integer 3, Cell.ofText "Cy", .integer 1] }] }]

def managed : SearchParams := Dict.set Keyed.empty "EQ_manager.name" (.text "Ben")

theorem run_select_office : ∃ plan, Plan.make people "people" managed .unsorted = .ok plan ∧
    ∀ b, ∃ s columns,
      Statement.ofText? b ((plan.select none).sql b) (plan.select none).params = some s ∧
      Repository.run (.serving Meaning.sqlite office) s Statement.rows =
        .ok (columns, [[.integer 1, Cell.ofText "Ada", .integer 2]]) := by
  have hchecked : (match Plan.make people "people" managed .unsorted with
      | .ok plan => decide ((∀ path ∈ plan.predicate.paths,
          path.toOne Meaning.sqlite office plan.entity = true) ∧ plan.Served Meaning.sqlite office ∧
          (managed.answer Meaning.sqlite office people plan.entity).map Prod.snd =
            some [[.integer 1, Cell.ofText "Ada", .integer 2]])
      | .error _ => false) = true := by decide +kernel
  cases hplan : Plan.make people "people" managed .unsorted with
  | error e =>
    rw [hplan] at hchecked
    cases hchecked
  | ok plan =>
    rw [hplan] at hchecked
    obtain ⟨hone, hserved, hrows⟩ := of_decide_eq_true hchecked
    have hlist : ∀ entry ∈ managed.entries, ∀ f, Filter.parse entry = .ok f →
        f.operator = .eq ∨ f.operator = .notEq → f.value.isList = false := by
      intro entry hentry f hf _
      rw [Filter.value_of_parse hf, List.mem_singleton.mp hentry]
      rfl
    refine ⟨plan, rfl, fun b => ?_⟩
    obtain ⟨s, htext, hright, hgiven⟩ := run_select hplan hlist hone b
    obtain ⟨answer, hanswer⟩ := hgiven hserved
    rw [hright answer hanswer, Option.map_some, Option.some.injEq] at hrows
    refine ⟨s, answer.1, htext, ?_⟩
    rw [← hrows]
    exact hanswer

end Plan
end TableSearch
