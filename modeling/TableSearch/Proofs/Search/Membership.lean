/-
Membership and equality.

A search by membership and one by equality test the same column, so a database that can run the
one can run the other.  Membership selects the rows that equality with some item selects, but for
items that are null: equality with null is a test for null, and a null item equals nothing.
`rows_isIn` says so for every list and every path.
-/
import TableSearch.Proofs.Search.Compilation

namespace TableSearch

open Sql (Statement Draft)

def SearchParams.single (operator : Operator) (path : String) (value : Value) : SearchParams :=
  Dict.set Keyed.empty (Filter.key operator path) value

namespace Plan

variable {r : Registry} {name path : String} {operator : Operator} {value : Value} {plan : Plan}

theorem make_single : make r name (.single operator path value) .unsorted = .ok plan ↔
    ∃ root a p, r.get name = .ok root ∧ Text.isBlank path = false ∧
      AttributePath.resolve r root path = .ok a ∧
        Predicate.ofOperator a operator value = .ok p ∧ plan = ⟨root, p, []⟩ := by
  constructor
  · intro h
    obtain ⟨hroot, hpredicate, _⟩ := make_eq_ok h
    obtain ⟨parts, hparts, hall⟩ := Predicate.predicateOf_eq_ok hpredicate
    have hentry : (SearchParams.single operator path value).entries =
      [(Filter.key operator path, value)] := rfl
    rw [hentry] at hparts
    obtain ⟨p, hp, rfl⟩ : ∃ p, Predicate.OfEntry r plan.entity
        (Filter.key operator path, value) p ∧ parts = [p] := by
      cases hparts with
      | cons hp hrest =>
        cases hrest
        exact ⟨_, hp, rfl⟩
    obtain ⟨f, a, hf, ha, hp⟩ := hp
    obtain ⟨_, _, hkey, hblank, rfl⟩ := Filter.parse_eq_ok.mp hf
    obtain ⟨rfl, rfl⟩ := Filter.key_injective hkey
    have hterms := terms_of_unsorted h
    refine ⟨plan.entity, a, p, hroot, hblank, ha, hp, ?_⟩
    cases plan
    cases hall
    cases hterms
    rfl
  · rintro ⟨root, a, p, hroot, hblank, ha, hp, rfl⟩
    have hpredicate : predicateOf r root (.single operator path value) = .ok p := by
      show (Filter.parseAll [(Filter.key operator path, value)] >>= _) = _
      rw [Filter.parseAll, List.mapM_cons, Filter.parse_key hblank]
      show (do let parts ← [_].mapM (Predicate.ofFilter r root); return Predicate.all parts) = _
      rw [List.mapM_cons, Predicate.ofFilter]
      dsimp only
      rw [ha]
      show (Predicate.ofOperator a operator value >>= _) >>= _ = _
      rw [hp]
      rfl
    unfold make
    rw [hroot]
    show predicateOf r root (.single operator path value) >>= _ = _
    rw [hpredicate]
    rfl

end Plan

/-! ## Tests of one column -/

/-- A predicate that compares one column with values or with null, and no more. -/
inductive Predicate.Tests (path : AttributePath) : Predicate → Prop where
  | isNull : Tests path (.isNull path)
  | compare {op value} : Tests path (.compare path op value)
  | isIn {value rest} : Tests path (.isIn path (value :: rest))

namespace Sql
namespace Statement

variable {m : Meaning} {d : Database} {root : Table} {joined : List Table} {p q : Predicate}
  {path : AttributePath} {table : String}

/-- The statement of a test names the column of its path, and nothing in its condition depends on
how the column is tested. -/
theorem select_tests (m : Meaning) (table : String) (h : p.Tests path) :
    (select table p [] none).joins = (Draft.empty.column path).2.joins.map Prod.snd ∧
      (select table p [] none).order = [] ∧
      ∃ c, (select table p [] none).condition = some c ∧ c.depth = 2 ∧
        c.refs = [(Draft.empty.column path).1] ∧
        ∀ params operand, c.meetsOverlong m params operand = false := by
  cases h with
  | isNull => exact ⟨rfl, rfl, _, rfl, rfl, rfl, fun _ _ => rfl⟩
  | compare => exact ⟨rfl, rfl, _, rfl, rfl, rfl, fun _ _ => rfl⟩
  | isIn => exact ⟨rfl, rfl, _, rfl, rfl, rfl, fun _ _ => rfl⟩

/-- A database that prepares one test of a column prepares every other that binds no more. -/
theorem tables_of_tests (hp : p.Tests path) (hq : q.Tests path)
    (hlength : q.values.length ≤ p.values.length)
    (h : (select table p [] none).tables m d = .ok (root, joined)) :
    (select table q [] none).tables m d = .ok (root, joined) := by
  obtain ⟨hjoins, horder, c, hc, hdepth, hrefs, _⟩ := select_tests m table hp
  obtain ⟨hjoins', horder', c', hc', hdepth', hrefs', _⟩ :=
    select_tests m table hq
  obtain ⟨hlimits, hroot, hjoined, hchecked⟩ := tables_eq_ok.mp h
  have hparams := select_params table p [] none
  have hparams' := select_params table q [] none
  refine tables_eq_ok.mpr ⟨?_, hroot, ?_, ?_⟩
  · unfold checkLimits at hlimits ⊢
    rw [hjoins, hc, hparams] at hlimits
    rw [hjoins', hc', hparams']
    simp only [Draft.windowValues, List.append_nil, Option.any_some, hdepth, hdepth',
      List.length_map] at hlimits ⊢
    split at hlimits
    · cases hlimits
    · next htables =>
      rw [if_neg htables]
      split at hlimits
      · cases hlimits
      · next hfew =>
        rw [if_neg (by omega)]
        exact hlimits
  · rw [hjoins']
    rw [hjoins] at hjoined
    exact hjoined
  · have hsame : (select table q [] none).refs = (select table p [] none).refs := by
      unfold refs
      rw [hjoins, hjoins', hc, hc', horder, horder']
      simp only [hrefs, hrefs']
    rw [hsame]
    exact hchecked

theorem exists_rows_of_tests (hp : p.Tests path)
    (h : (select table p [] none).tables m d = .ok (root, joined)) :
    ∃ answer, (select table p [] none).rows m d = .ok answer := by
  obtain ⟨_, _, c, hc, _, _, hmeets⟩ := select_tests m table hp
  have hcheck : (select table p [] none).checkPatterns m root joined = .ok () := by
    unfold checkPatterns
    simp only [hc, Option.any_some, hmeets, List.any_eq_false.mpr fun _ _ => Bool.false_ne_true,
      Bool.and_false]
    rfl
  exact ⟨_, Success.bind_eq_ok.mpr ⟨_, h, Success.bind_eq_ok.mpr ⟨_, hcheck, rfl⟩⟩⟩

end Statement
end Sql

/-! ## Membership as equality -/

namespace SearchParams

variable {m : Meaning} {d : Database} {r : Registry} {e : Entity} {place : Place} {path : String}
  {operator : Operator} {value : Value}

theorem holdsAt_single (h : Text.isBlank path = false) :
    (single operator path value).holdsAt m d r e place =
      Filter.holdsAt m d r e place { path, operator, value } := by
  show ([(Filter.key operator path, value)].all _) = _
  rw [List.all_cons, List.all_nil, Bool.and_true, Filter.parse_key h]

/-- A row passes membership when it passes equality with an item that is not null. -/
theorem holdsAt_isIn {values : List Value} (h : Text.isBlank path = false)
    (hnull : .null ∈ values → ∀ x, m.compare .eq x .null ≠ .yes) :
    (single .isIn path (.list values)).holdsAt m d r e place =
      values.any fun v => !v.isNull && (single .eq path v).holdsAt m d r e place := by
  simp only [holdsAt_single h, Filter.holdsAt, Filter.segments]
  cases hread : place.read m d r e (Text.pieces Filter.segmentSeparator path) with
  | none => simp
  | some found =>
    obtain ⟨x, type⟩ := found
    show (values.any fun v => m.compare .eq x v == .yes) = values.any fun v =>
      !v.isNull && if v.isNull then x.cell.isNull else m.compare .eq x v == .yes
    have hitem : ∀ v ∈ values, (m.compare .eq x v == .yes) =
        (!v.isNull && if v.isNull then x.cell.isNull else m.compare .eq x v == .yes) := by
      intro v hv
      cases v with
      | null => simpa [Value.isNull] using hnull hv x
      | bool b => rfl
      | int n => rfl
      | float y => rfl
      | text s => rfl
      | list items => rfl
    rw [Bool.eq_iff_iff, List.any_eq_true, List.any_eq_true]
    exact exists_congr fun v => and_congr_right fun hv => Bool.eq_iff_iff.mp (hitem v hv)

end SearchParams

namespace Plan

open Repository (run)

variable {r : Registry} {name path : String} {m : Meaning} {d : Database} {plan : Plan}

/-- The rows that a search under one operator selects. -/
theorem rows_single {operator : Operator} {value : Value}
    (hplan : Plan.make r name (.single operator path value) .unsorted = .ok plan)
    (hone : ∀ a ∈ plan.predicate.paths, a.toOne m d plan.entity = true)
    {answer : List Column × List (List Cell)}
    (h : (plan.select none).rows m d = .ok answer) :
    ∃ t joined, (plan.select none).tables m d = .ok (t, joined) ∧ answer = (t.columns,
      (t.rows.filter fun row => (SearchParams.single operator path value).holdsAt m d r
        plan.entity ⟨t, some row⟩).map Row.cells) := by
  obtain ⟨t, joined, htables, rfl⟩ := Statement.rows_eq_ok h
  refine ⟨t, joined, htables, ?_⟩
  rw [ordered_select hplan htables hone]
  rfl

theorem make_isIn {vs : List Value} :
    Plan.make r name (.single .isIn path (.list vs)) .unsorted = .ok plan ↔
      ∃ root a, r.get name = .ok root ∧ Text.isBlank path = false ∧
        AttributePath.resolve r root path = .ok a ∧ (∀ v ∈ vs, v.isList = false) ∧
          plan = ⟨root, .isIn a vs, []⟩ := by
  rw [make_single]
  constructor
  · rintro ⟨root, a, p, hroot, hblank, ha, hp, rfl⟩
    rw [Predicate.ofOperator] at hp
    obtain ⟨_, hitems, hsingle, rfl⟩ := Predicate.membership_eq_ok.mp hp
    cases hitems
    exact ⟨root, a, hroot, hblank, ha, hsingle, rfl⟩
  · rintro ⟨root, a, hroot, hblank, ha, hsingle, rfl⟩
    exact ⟨root, a, _, hroot, hblank, ha,
      Predicate.membership_eq_ok.mpr ⟨vs, rfl, hsingle, rfl⟩, rfl⟩

theorem params_of_values {root : Entity} {p : Predicate} (h : ∀ v ∈ p.values, v.isList = false) :
    ∀ v ∈ (Plan.select ⟨root, p, []⟩ none).params, v.isList = false := by
  rw [select, Statement.select_params]
  intro v hv
  rcases List.mem_append.mp hv with hv | hv
  · exact h v hv
  · cases hv

/-- A database that can run a membership test can run equality with each item. -/
theorem run_eq_of_isIn {root : Entity} {a : AttributePath} {vs : List Value} {v : Value}
    {t : Table} {joined : List Table} (hroot : r.get name = .ok root)
    (hblank : Text.isBlank path = false) (ha : AttributePath.resolve r root path = .ok a)
    (hone : a.toOne m d root = true) (hsingle : ∀ v ∈ vs, v.isList = false) (hv : v ∈ vs)
    (htables : (Plan.select ⟨root, .isIn a vs, []⟩ none).tables m d = .ok (t, joined)) :
    ∃ plan', Plan.make r name (.single .eq path v) .unsorted = .ok plan' ∧
      run (.serving m d) (plan'.select none) Statement.rows = .ok (t.columns,
        (t.rows.filter fun row => (SearchParams.single .eq path v).holdsAt m d r root
          ⟨t, some row⟩).map Row.cells) := by
  obtain ⟨p, hp, htests, hlength, hvalues, hpaths⟩ : ∃ p,
      Predicate.ofOperator a .eq v = .ok p ∧ p.Tests a ∧
        p.values.length ≤ vs.length ∧ (∀ w ∈ p.values, w.isList = false) ∧ p.paths = [a] := by
    have hbuilt : Predicate.ofOperator a .eq v =
        .ok (if v.isNull then .isNull a else .compare a .eq v) := rfl
    refine ⟨_, hbuilt, ?_, ?_, Predicate.values_ofOperator hbuilt fun _ => hsingle v hv,
      Predicate.paths_ofOperator hbuilt⟩
    · split
      · exact .isNull
      · exact .compare
    · split
      · exact Nat.zero_le _
      · exact List.length_pos_of_mem hv
  have hlist : Predicate.Tests a (.isIn a vs) := by
    cases hv with
    | head => exact .isIn
    | tail => exact .isIn
  have hplan := make_single.mpr ⟨root, a, p, hroot, hblank, ha, hp, rfl⟩
  have htables' := Statement.tables_of_tests hlist htests hlength htables
  obtain ⟨answer, hanswer⟩ := Statement.exists_rows_of_tests htests htables'
  refine ⟨_, hplan, Repository.run_serving_eq_ok.mpr ⟨params_of_values hvalues, ?_⟩⟩
  have hone' : ∀ b ∈ p.paths, b.toOne m d root = true := by
    rw [hpaths]
    exact List.forall_mem_singleton.mpr hone
  obtain ⟨t', _, hsame, rfl⟩ := rows_single hplan hone' hanswer
  have ht : t = t' := congrArg Prod.fst (Except.ok.inj (htables'.symm.trans hsame))
  rw [ht]
  exact hanswer

/-- Membership as equality.  A search by membership selects the rows that a search by equality
with one of the items selects, where that item is not null: a null item selects nothing, though
equality with null is a search for what is missing.  Where membership can be run, so can equality
with each item. -/
theorem rows_isIn {vs : List Value}
    (hplan : Plan.make r name (.single .isIn path (.list vs)) .unsorted = .ok plan)
    (hone : ∀ a ∈ plan.predicate.paths, a.toOne m d plan.entity = true)
    (hnull : .null ∈ vs → ∀ x, m.compare .eq x .null ≠ .yes) :
    (∀ answer, run (.serving m d) (plan.select none) Statement.rows = .ok answer →
      ∃ t, d.table? plan.entity.table = some t ∧
        (∀ v ∈ vs, ∃ plan', Plan.make r name (.single .eq path v) .unsorted = .ok plan' ∧
          run (.serving m d) (plan'.select none) Statement.rows = .ok (t.columns,
            (t.rows.filter fun row => (SearchParams.single .eq path v).holdsAt m d r plan.entity
              ⟨t, some row⟩).map Row.cells)) ∧
        answer = (t.columns, (t.rows.filter fun row => vs.any fun v => !v.isNull &&
          (SearchParams.single .eq path v).holdsAt m d r plan.entity ⟨t, some row⟩).map
            Row.cells)) ∧
    (plan.Served m d →
      ∃ answer, run (.serving m d) (plan.select none) Statement.rows = .ok answer) := by
  obtain ⟨root, a, hroot, hblank, ha, hsingle, rfl⟩ := make_isIn.mp hplan
  have hparams : ∀ v ∈ (Plan.select ⟨root, .isIn a vs, []⟩ none).params, v.isList = false :=
    params_of_values hsingle
  constructor
  · intro answer h
    obtain ⟨_, h⟩ := Repository.run_serving_eq_ok.mp h
    obtain ⟨t, joined, htables, rfl⟩ := rows_single hplan hone h
    refine ⟨t, (Statement.tables_eq_ok.mp htables).2.1, fun v hv => ?_, ?_⟩
    · exact run_eq_of_isIn hroot hblank ha (hone a List.mem_cons_self) hsingle hv htables
    · simp only [SearchParams.holdsAt_isIn hblank hnull]
  · intro h
    obtain ⟨t, joined, htables⟩ := exists_tables hplan h
    obtain ⟨answer, hanswer⟩ := Statement.exists_rows htables h.patterns
    exact ⟨answer, Repository.run_serving_eq_ok.mpr ⟨hparams, hanswer⟩⟩

theorem compare_sqlite_null (op : Comparison) (x : Operand) :
    Meaning.sqlite.compare op x .null ≠ .yes := by
  show Meaning.compareCells op x.traits.affinity x .null ≠ .yes
  rw [Meaning.compareCells_null rfl]
  decide

def managedOrNot : SearchParams :=
  .single .isIn "manager.name" (.list [.null, .int 2, .text "Ben"])

theorem rows_isIn_office : ∃ plan, Plan.make people "people" managedOrNot .unsorted = .ok plan ∧
    ∃ columns, run (.serving Meaning.sqlite office) (plan.select none) Statement.rows =
      .ok (columns, [[.integer 1, Cell.ofText "Ada", .integer 2]]) := by
  have hchecked : (match Plan.make people "people" managedOrNot .unsorted with
      | .ok plan => decide ((∀ a ∈ plan.predicate.paths,
          a.toOne Meaning.sqlite office plan.entity = true) ∧ plan.Served Meaning.sqlite office ∧
          ∀ t ∈ office.table? plan.entity.table, (t.rows.filter fun row =>
            [.null, .int 2, .text "Ben"].any fun v => !v.isNull &&
              (SearchParams.single .eq "manager.name" v).holdsAt Meaning.sqlite office people
                plan.entity ⟨t, some row⟩).map Row.cells =
              [[.integer 1, Cell.ofText "Ada", .integer 2]])
      | .error _ => false) = true := by decide +kernel
  cases hplan : Plan.make people "people" managedOrNot .unsorted with
  | error e =>
    rw [hplan] at hchecked
    cases hchecked
  | ok plan =>
    rw [hplan] at hchecked
    obtain ⟨hone, hserved, hrows⟩ := of_decide_eq_true hchecked
    obtain ⟨hright, hgiven⟩ := rows_isIn hplan hone fun _ => compare_sqlite_null .eq
    obtain ⟨answer, hanswer⟩ := hgiven hserved
    obtain ⟨t, ht, _, rfl⟩ := hright answer hanswer
    refine ⟨plan, rfl, t.columns, ?_⟩
    rw [hanswer, hrows t ht]

/-- Ben answers to nobody, which equality with null says and membership does not. -/
theorem isIn_null_office :
    (∃ plan, Plan.make people "people" (.single .isIn "manager" (.list [.null])) .unsorted =
      .ok plan ∧ ∃ columns, run (.serving Meaning.sqlite office) (plan.select none)
        Statement.rows = .ok (columns, [])) ∧
    (∃ plan, Plan.make people "people" (.single .eq "manager" .null) .unsorted = .ok plan ∧
      ∃ columns, run (.serving Meaning.sqlite office) (plan.select none) Statement.rows =
        .ok (columns, [[.integer 2, Cell.ofText "Ben", .null]])) := by
  have hselects : ∀ {params rows}, (match Plan.make people "people" params .unsorted with
      | .ok plan => decide ((run (.serving Meaning.sqlite office) (plan.select none)
          Statement.rows).toOption.map Prod.snd = some rows)
      | .error _ => false) = true →
      ∃ plan, Plan.make people "people" params .unsorted = .ok plan ∧ ∃ columns,
        run (.serving Meaning.sqlite office) (plan.select none) Statement.rows =
          .ok (columns, rows) := by
    intro params rows h
    cases hplan : Plan.make people "people" params .unsorted with
    | error e =>
      rw [hplan] at h
      cases h
    | ok plan =>
      rw [hplan] at h
      have h := of_decide_eq_true h
      refine ⟨plan, rfl, ?_⟩
      cases hrun : run (.serving Meaning.sqlite office) (plan.select none) Statement.rows with
      | error e =>
        rw [hrun] at h
        cases h
      | ok answer =>
        rw [hrun] at h
        cases h
        exact ⟨answer.1, rfl⟩
  exact ⟨hselects (by decide +kernel), hselects (by decide +kernel)⟩

end Plan
end TableSearch
