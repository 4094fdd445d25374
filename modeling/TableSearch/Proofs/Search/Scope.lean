/-
Labels in scope.

The tables of a search get their labels in the order in which its relations are first used.
`Join.label?` says which label a relation path has among joins, and has none for a path that
they do not reach, where a draft would take the root instead.  `labels_scoped` says that a
draft never does: the text of a search refers to every table and column by the label that its
relation path has, and each join by labels that stand before it.

What makes this right is that a relation path determines its join.  Two paths that were
resolved apart agree on every join that they share, so the first one's join serves both.
-/
import Mathlib.Data.List.Nodup
import TableSearch.Proofs.Search.Compilation
import TableSearch.Proofs.Sql.Marks
import TableSearch.Proofs.Sql.Reference

namespace TableSearch

open Sql (Reference aliasText)

/-! ## Labels by relation path -/

namespace Join

/-- The number of the table for a relation path, where joins are numbered from one on.  The
root has number zero, and a path that has no join has none. -/
def number? (js : List Join) : Option String → Option Nat
  | none => some 0
  | some path => (js.findIdx? fun j => j.path == path).map (· + 1)

def label? (js : List Join) (path : Option String) : Option String :=
  (number? js path).map aliasText

/-- What joins refer to.  Each sees the joins before it: `seen`, and those of the list. -/
def references? (seen : List Join) : List Join → List (Option Reference)
  | [] => []
  | j :: rest =>
      let label := aliasText (seen.length + 1)
      some (.table j.table label) :: some (.column label j.references) ::
        (label? seen j.parent).map (Reference.column · j.column) ::
          references? (seen ++ [j]) rest

theorem number?_le {js : List Join} {path : Option String} {n : Nat}
    (h : number? js path = some n) : n ≤ js.length := by
  cases path with
  | none =>
    cases h
    exact Nat.zero_le _
  | some path =>
    obtain ⟨i, hi, rfl⟩ := Option.map_eq_some_iff.mp h
    exact (List.findIdx?_eq_some_iff_getElem.mp hi).1

theorem number?_of_prefix {js ks : List Join} (h : js <+: ks) {path : Option String} {n : Nat}
    (hn : number? ks path = some n) (hle : n ≤ js.length) : number? js path = some n := by
  cases path with
  | none => exact hn
  | some path =>
    obtain ⟨i, hi, rfl⟩ := Option.map_eq_some_iff.mp hn
    cases hj : js.findIdx? fun j => j.path == path with
    | none =>
      obtain ⟨more, rfl⟩ := h
      rw [List.findIdx?_append, hj, Option.none_or, Option.map_eq_some_iff] at hi
      obtain ⟨k, _, hk⟩ := hi
      omega
    | some k =>
      have hk := h.findIdx?_eq_some hj
      rw [hi, Option.some.injEq] at hk
      simp [number?, hj, hk]

theorem label?_eq_some {js : List Join} {path : Option String} {label : String}
    (h : label? js path = some label) : ∃ n ≤ js.length, label = aliasText n := by
  obtain ⟨n, hn, rfl⟩ := Option.map_eq_some_iff.mp h
  exact ⟨n, number?_le hn, rfl⟩

theorem label_of_mem_references? {seen rest : List Join} {label name : String}
    (h : some (.column label name) ∈ references? seen rest) :
    ∃ n ≤ (seen ++ rest).length, label = aliasText n := by
  induction rest generalizing seen with
  | nil => cases h
  | cons j rest ih =>
    have hall : (seen ++ j :: rest).length = (seen ++ [j] ++ rest).length := by simp
    rw [references?] at h
    simp only [List.mem_cons, Option.some.injEq, reduceCtorEq, false_or] at h
    rcases h with h | h | h
    · cases h
      exact ⟨seen.length + 1, by simp, rfl⟩
    · obtain ⟨label', hlabel, he⟩ := Option.map_eq_some_iff.mp h.symm
      cases he
      obtain ⟨n, hn, rfl⟩ := label?_eq_some hlabel
      exact ⟨n, by rw [List.length_append]; omega, rfl⟩
    · rw [hall]
      exact ih h

theorem mem_of_mem_firstUses {j : Join} {js : List Join} (h : j ∈ firstUses js) : j ∈ js := by
  induction js with
  | nil => exact h
  | cons k rest ih =>
    rw [firstUses] at h
    rcases List.mem_cons.mp h with rfl | h
    · exact List.mem_cons_self
    · exact List.mem_cons_of_mem k (ih (List.mem_filter.mp h).1)

theorem exists_mem_firstUses {j : Join} {js : List Join} (h : j ∈ js) :
    ∃ k ∈ firstUses js, k.path = j.path := by
  induction js with
  | nil => cases h
  | cons k rest ih =>
    rw [firstUses]
    rcases List.mem_cons.mp h with rfl | h
    · exact ⟨j, List.mem_cons_self, rfl⟩
    · obtain ⟨l, hl, hpath⟩ := ih h
      by_cases hsame : l.path = k.path
      · exact ⟨k, List.mem_cons_self, hsame.symm.trans hpath⟩
      · exact ⟨l, List.mem_cons_of_mem k (List.mem_filter.mpr ⟨hl, by simpa using hsame⟩), hpath⟩

end Join

namespace AttributePath

def reference? (js : List Join) (p : AttributePath) : Option Reference :=
  (Join.label? js p.owner).map (Reference.column · p.column)

end AttributePath

namespace Sql

/-! ## Drafts and their joins -/

namespace Draft

structure Lists (d : Draft) (js : List Join) : Prop where
  entries : d.joins = js.map fun j => (j.path, d.clause j)
  declares : ∀ i j, js[i]? = some j → d.Declares i j

/-- The draft of resolved paths has the first join for each relation path. -/
theorem Resolved.lists {r : Registry} {root : Entity} {paths : List AttributePath}
    (h : Resolved r root paths) (values : List Value) :
    (empty.after paths values).Lists (Join.firstUses (paths.flatMap AttributePath.joins)) := by
  have huses := after_uses paths values
  -- The draft agrees with the first uses up to parents, and a sound draft has for each of
  -- its paths the one join that leads there.
  have hdeclares : ∀ i j, (Join.firstUses (paths.flatMap AttributePath.joins))[i]? = some j →
      (empty.after paths values).Declares i j := by
    intro i j hj
    have hi := congrArg (fun l => l[i]?) huses
    simp only [List.getElem?_map, hj, Option.map_some] at hi
    obtain ⟨k, hk, hsame⟩ := Option.map_eq_some_iff.mp hi
    obtain ⟨j', hj', hdecl⟩ := h.sound values i k hk
    have hpath : j'.path = j.path := by
      have hentry : k = (j'.path, _) := Option.some.inj (hk.symm.trans hdecl.entry)
      rw [hentry] at hsame
      exact congrArg Prod.fst hsame
    obtain ⟨path, hpath', hmem⟩ := List.mem_flatMap.mp (Join.mem_of_mem_firstUses
      (List.mem_of_getElem? hj))
    rw [hj'.1.eq_of_path (h.relates path hpath' j hmem) hpath] at hdecl
    exact hdecl
  constructor
  · refine List.ext_getElem? fun i => ?_
    have hi := congrArg (fun l => l[i]?) huses
    simp only [List.getElem?_map] at hi
    rw [List.getElem?_map]
    cases hj : (Join.firstUses (paths.flatMap AttributePath.joins))[i]? with
    | none =>
      rw [hj, Option.map_none, Option.map_eq_none_iff] at hi
      exact hi
    | some j => exact (hdeclares i j hj).entry
  · exact hdeclares

/-- Of joins that resolved paths share, the first one is every one of them. -/
theorem Resolved.mem_firstUses {r : Registry} {root : Entity} {paths : List AttributePath}
    (h : Resolved r root paths) {path : AttributePath} (hpath : path ∈ paths) {j : Join}
    (hj : j ∈ path.joins) : j ∈ Join.firstUses (paths.flatMap AttributePath.joins) := by
  obtain ⟨k, hk, hsame⟩ := Join.exists_mem_firstUses (List.mem_flatMap.mpr ⟨path, hpath, hj⟩)
  obtain ⟨path', hpath', hk'⟩ := List.mem_flatMap.mp (Join.mem_of_mem_firstUses hk)
  rw [← (h.relates path' hpath' k hk').eq_of_path (h.relates path hpath j hj) hsame]
  exact hk

variable {d : Draft} {js : List Join}

/-- A draft finds a path that it knows, and never falls back to the root. -/
theorem Lists.number?_eq (h : d.Lists js) {path : Option String} (hk : d.Knows path) :
    Join.number? js path = some (d.tableOf path) := by
  cases path with
  | none => rfl
  | some path =>
    have hfind : (d.joins.findIdx? fun k => k.1 == path) =
        js.findIdx? fun j => j.path == path := by
      rw [h.entries, List.findIdx?_map]
      rfl
    obtain ⟨k, hk, hpath⟩ := hk
    cases hi : d.joins.findIdx? fun k => k.1 == path with
    | none =>
      have hno := List.findIdx?_eq_none_iff.mp hi k hk
      simp [hpath] at hno
    | some i => simp [Join.number?, tableOf, ← hfind, hi]

theorem Lists.reference?_eq (h : d.Lists js) {path : AttributePath} (hk : d.Knows path.owner) :
    path.reference? js = some (d.ref path).reference := by
  rw [AttributePath.reference?, Join.label?, h.number?_eq hk]
  rfl

/-- Every join refers to itself and, by a label that was given before, to its parent. -/
theorem Lists.references?_eq (h : d.Lists js) {seen rest : List Join} (hjs : seen ++ rest = js) :
    Join.references? seen rest =
      (joinReferences (seen.length + 1) (rest.map d.clause)).map some := by
  induction rest generalizing seen with
  | nil => rfl
  | cons j rest ih =>
    have hdecl := h.declares seen.length j (by simp [← hjs])
    have hparent : Join.number? seen j.parent = some (d.tableOf j.parent) :=
      Join.number?_of_prefix ⟨j :: rest, hjs⟩ (h.number?_eq hdecl.knows) hdecl.parent_le
    have hrest := @ih (seen ++ [j]) (by rw [List.append_assoc]; exact hjs)
    rw [List.length_append, List.length_singleton] at hrest
    simp only [Join.references?, Join.label?, hparent, hrest]
    rfl

theorem sortKeys_eq {D : Draft} (d : Draft) (terms : List ResolvedTerm)
    (hc : ∀ t ∈ terms, AttributePath.Chained none t.path.joins t.path.owner)
    (hjoins : (d.after (terms.map ResolvedTerm.path) []).joins <+: D.joins) :
    (d.sortKeys terms).1 = terms.map fun t =>
      { ref := D.ref t.path, direction := t.direction, nulls := t.nulls } := by
  induction terms generalizing d with
  | nil => rfl
  | cons t rest ih =>
    have hgrown : d.after ((t :: rest).map ResolvedTerm.path) [] =
        (d.after [t.path] []).after (rest.map ResolvedTerm.path) [] :=
          (after_after d [t.path] (rest.map ResolvedTerm.path) [] []).symm
    rw [hgrown] at hjoins
    have href := column_ref (hc t List.mem_cons_self) ((prefix_after _ _ _).trans hjoins)
    have hrest := ih (d.after [t.path] []) (fun u hu => hc u (List.mem_cons_of_mem t hu)) hjoins
    show ({ ref := (d.column t.path).1, direction := t.direction, nulls := t.nulls } : SortKey) ::
      ((d.column t.path).2.sortKeys rest).1 = _
    rw [column_draft, href, hrest]
    rfl

end Draft

/-! ## Scoped texts -/

/-- The paths of a sort term's column, as often as the text names it. -/
def ResolvedTerm.columnPaths (b : Backend) (t : ResolvedTerm) : List AttributePath :=
  if b = .sqlite ∧ t.nulls ≠ .native then [t.path, t.path] else [t.path]

theorem ResolvedTerm.eq_of_mem_columnPaths {b : Backend} (t : ResolvedTerm)
    {path : AttributePath} (h : path ∈ t.columnPaths b) : path = t.path := by
  unfold columnPaths at h
  split at h <;> simpa using h

/-- A text refers to a table, then to joins, and then to the columns of paths, all by labels that
are in scope. -/
structure Scoped (text table : String) (js : List Join) (paths : List AttributePath) : Prop where
  references : (references (lex text)).map some =
    some (.table table "t0") ::
      (Join.references? [] js ++ paths.map (AttributePath.reference? js))
  /-- The root and the joins get the labels `t0`, `t1` and so on, in order. -/
  labels : (Sql.references (lex text)).filterMap Reference.label? =
    (List.range (js.length + 1)).map fun n => "t" ++ toString n
  distinct : ((Sql.references (lex text)).filterMap Reference.label?).Nodup
  declared : ∀ label name, Reference.column label name ∈ Sql.references (lex text) →
    label ∈ (Sql.references (lex text)).filterMap Reference.label?

theorem labels_joinReferences (n : Nat) (js : List JoinClause) :
    (joinReferences n js).filterMap Reference.label? =
      (List.range' n js.length).map aliasText := by
  induction js generalizing n with
  | nil => rfl
  | cons j rest ih =>
    show aliasText n :: (joinReferences (n + 1) rest).filterMap Reference.label? = _
    rw [ih]
    rfl

theorem labels_columns (refs : List ColumnRef) :
    (refs.map ColumnRef.reference).filterMap Reference.label? = [] := by
  refine List.filterMap_eq_nil_iff.mpr fun r hr => ?_
  obtain ⟨ref, _, rfl⟩ := List.mem_map.mp hr
  rfl

namespace Statement

theorem labels_sql (b : Backend) (s : Statement) :
    (references (lex (s.sql b))).filterMap Reference.label? =
      (List.range (s.joins.length + 1)).map aliasText := by
  rw [references_sql, List.filterMap_cons, List.filterMap_append, labels_joinReferences,
    labels_columns, List.append_nil, List.range_eq_range', List.range'_succ, List.map_cons]
  rfl

variable {table : String} {p : Predicate} {terms : List ResolvedTerm} {w : Option Window}
  {js : List Join}

theorem joins_select (hlists : (draft p terms w).Lists js) :
    (select table p terms w).joins = js.map (draft p terms w).clause := by
  rw [select_joins, hlists.entries, List.map_map]
  rfl

theorem conditionRefs_select (hc : ∀ path ∈ p.paths,
    AttributePath.Chained none path.joins path.owner) :
    conditionRefs (select table p terms w).condition =
      p.columnPaths.map (draft p terms w).ref := by
  show conditionRefs (Draft.empty.optionalCondition p).1 = _
  unfold Draft.optionalCondition
  by_cases h : p.matchesAll = true
  · rw [if_pos h, Predicate.matchesAll_iff.mp h]
    rfl
  · rw [if_neg h]
    exact Draft.refs_condition Draft.empty p hc (prefix_draft p terms w)

theorem order_select (hc : ∀ t ∈ terms, AttributePath.Chained none t.path.joins t.path.owner) :
    (select table p terms w).order = terms.map fun t =>
      { ref := (draft p terms w).ref t.path, direction := t.direction, nulls := t.nulls } := by
  show ((Draft.empty.optionalCondition p).2.sortKeys terms).1 = _
  refine Draft.sortKeys_eq _ terms hc ?_
  rw [Draft.optionalCondition_draft, Draft.after_after]
  exact List.prefix_rfl

theorem refs_order (b : Backend)
    (hc : ∀ t ∈ terms, AttributePath.Chained none t.path.joins t.path.owner) :
    (select table p terms w).order.flatMap (SortKey.refs b) =
      (terms.flatMap (ResolvedTerm.columnPaths b)).map (draft p terms w).ref := by
  rw [order_select hc, List.flatMap_map, List.map_flatMap]
  refine List.flatMap_congr fun t _ => ?_
  unfold SortKey.refs ResolvedTerm.columnPaths
  split <;> rfl

theorem references_select (hlists : (draft p terms w).Lists js)
    (hc : ∀ path ∈ p.paths ++ terms.map ResolvedTerm.path,
      AttributePath.Chained none path.joins path.owner) (b : Backend) :
    (references (lex ((select table p terms w).sql b))).map some =
      some (.table table "t0") :: (Join.references? [] js ++ (p.columnPaths ++
        terms.flatMap (ResolvedTerm.columnPaths b)).map (AttributePath.reference? js)) := by
  have hcolumns : ∀ path ∈ p.columnPaths ++ terms.flatMap (ResolvedTerm.columnPaths b),
      some ((draft p terms w).ref path).reference = path.reference? js := by
    intro path hpath
    have hused : path ∈ p.paths ++ terms.map ResolvedTerm.path := by
      rcases List.mem_append.mp hpath with hpath | hpath
      · exact List.mem_append_left _ (p.columnPaths_subset hpath)
      · obtain ⟨t, ht, hpath⟩ := List.mem_flatMap.mp hpath
        rw [t.eq_of_mem_columnPaths hpath]
        exact List.mem_append_right _ (List.mem_map_of_mem ht)
    exact (hlists.reference?_eq (Draft.knows_owner_after hused (hc path hused) _ _)).symm
  have hjoins := hlists.references?_eq (List.nil_append js)
  have hcondition : conditionRefs (select table p terms w).condition = _ :=
    conditionRefs_select fun path hpath => hc path (List.mem_append_left _ hpath)
  have horder : (select table p terms w).order.flatMap (SortKey.refs b) = _ :=
    refs_order b fun t ht => hc t.path (List.mem_append_right _ (List.mem_map_of_mem ht))
  rw [references_sql, joins_select hlists, hcondition, horder, ← List.map_append, List.map_cons,
    List.map_append, List.map_map, List.map_map, hjoins]
  refine congrArg (fun l => _ :: (_ ++ l)) ?_
  exact List.map_congr_left hcolumns

theorem scoped_select (hlists : (draft p terms w).Lists js)
    (hc : ∀ path ∈ p.paths ++ terms.map ResolvedTerm.path,
      AttributePath.Chained none path.joins path.owner) (b : Backend) :
    Scoped ((select table p terms w).sql b) table js
      (p.columnPaths ++ terms.flatMap (ResolvedTerm.columnPaths b)) := by
  have hreferences : (references (lex ((select table p terms w).sql b))).map some = _ :=
    references_select hlists hc b
  have hlabels := labels_sql b (select table p terms w)
  rw [joins_select hlists, List.length_map] at hlabels
  constructor
  · exact hreferences
  · exact hlabels
  · rw [hlabels]
    exact List.nodup_range.map aliasText_injective
  · intro label name href
    have hmem := List.mem_map_of_mem (f := some) href
    rw [hreferences, List.mem_cons, List.mem_append] at hmem
    have hbound : ∃ n ≤ js.length, label = aliasText n := by
      rcases hmem with hmem | hmem | hmem
      · cases hmem
      · exact Join.label_of_mem_references? hmem
      · obtain ⟨path, _, hpath⟩ := List.mem_map.mp hmem
        obtain ⟨label', hlabel, he⟩ := Option.map_eq_some_iff.mp hpath
        cases he
        exact Join.label?_eq_some hlabel
    obtain ⟨n, hn, rfl⟩ := hbound
    rw [hlabels]
    exact List.mem_map_of_mem (List.mem_range.mpr (Nat.lt_succ_of_le hn))

end Statement
end Sql

/-! ## Planned searches -/

namespace Plan

variable {r : Registry} {name : String} {params : SearchParams} {sort : SortOrder} {plan : Plan}

def joins (p : Plan) : List Join :=
  Join.firstUses (p.paths.flatMap AttributePath.joins)

/-- Labels are in scope.  The text of a planned search joins each relation once, in the order of
first use, and refers to every column by the label of the relation that owns it.  Every join
that a path of the plan needs is there as the path has it, because paths from one entity agree
on the joins that they share. -/
theorem labels_scoped (h : Plan.make r name params sort = .ok plan) (b : Backend)
    (w : Option Sql.Window) :
    Sql.Scoped ((plan.select w).sql b) plan.entity.table plan.joins
      (plan.predicate.columnPaths ++ plan.terms.flatMap (Sql.ResolvedTerm.columnPaths b)) ∧
    (∀ path ∈ plan.paths, ∀ j ∈ path.joins, j ∈ plan.joins) ∧
    ∀ s s' path path', AttributePath.resolve r plan.entity s = .ok path →
      AttributePath.resolve r plan.entity s' = .ok path' →
        ∀ j ∈ path.joins, ∀ j' ∈ path'.joins, j.path = j'.path → j = j' := by
  have hres := resolved_of_make h
  refine ⟨Sql.Statement.scoped_select (hres.lists _) hres.chained b, ?_, ?_⟩
  · intro path hpath j hj
    exact hres.mem_firstUses hpath hj
  · intro s s' path path' hs hs' j hj j' hj' he
    exact (AttributePath.relates_of_resolve hs j hj).eq_of_path
      (AttributePath.relates_of_resolve hs' j' hj') he

def bySenior : SortOrder := .ofTerm { property := "manager.manager.id", nulls := .nullsLast }

theorem labels_scoped_senior : ∃ plan, Plan.make people "people" managed bySenior = .ok plan ∧
    Sql.references (Sql.lex ((plan.select none).sql .sqlite)) =
      [.table "people" "t0", .table "people" "t1", .column "t1" "id", .column "t0" "manager_id",
        .table "people" "t2", .column "t2" "id", .column "t1" "manager_id", .column "t1" "name",
        .column "t2" "id", .column "t2" "id"] := by
  have hchecked : (match Plan.make people "people" managed bySenior with
      | .ok plan => decide (some (Reference.table plan.entity.table "t0") ::
          (Join.references? [] plan.joins ++ (plan.predicate.columnPaths ++
            plan.terms.flatMap (Sql.ResolvedTerm.columnPaths .sqlite)).map
              (AttributePath.reference? plan.joins)) =
          [Reference.table "people" "t0", .table "people" "t1", .column "t1" "id",
            .column "t0" "manager_id", .table "people" "t2", .column "t2" "id",
            .column "t1" "manager_id", .column "t1" "name", .column "t2" "id",
            .column "t2" "id"].map some)
      | .error _ => false) = true := by decide +kernel
  cases hplan : Plan.make people "people" managed bySenior with
  | error e =>
    rw [hplan] at hchecked
    cases hchecked
  | ok plan =>
    rw [hplan] at hchecked
    have hscoped := (labels_scoped hplan .sqlite none).1.references
    rw [of_decide_eq_true hchecked] at hscoped
    exact ⟨plan, rfl, (List.map_inj_right fun _ _ => Option.some.inj).mp hscoped⟩

end Plan
end TableSearch
