/-
What the two statements of a plan have in common.

The joins and the parameters of both come from one draft, and the predicate is drafted first.
A count stops there.  A search goes on with its order and its window, and whatever it adds is
added behind: `condition_shared` says of the texts that the condition and its joins are the
same, whatever the order and the window are.
-/
import TableSearch.Proofs.Sql.Placeholder
import TableSearch.Search.Plan

namespace TableSearch
namespace Sql

theorem joinsSql_append (n : Nat) (js ks : List JoinClause) :
    joinsSql n (js ++ ks) = joinsSql n js ++ joinsSql (n + js.length) ks := by
  induction js generalizing n with
  | nil => exact String.empty_append.symm
  | cons j rest ih =>
    have hnumber : n + 1 + rest.length = n + (j :: rest).length := by
      rw [List.length_cons]
      omega
    show " " ++ j.sql n ++ joinsSql (n + 1) (rest ++ ks) = _
    rw [ih, hnumber, ← String.append_assoc]
    rfl

theorem joinsSql_eq_empty {n : Nat} {js : List JoinClause} : joinsSql n js = "" ↔ js = [] := by
  cases js with
  | nil => exact iff_of_true rfl rfl
  | cons j rest =>
    refine iff_of_false (fun h => ?_) (List.cons_ne_nil j rest)
    have hlength := congrArg String.length h
    simp [joinsSql] at hlength

namespace Draft

/-! ## Joins that are there already -/

theorem knows_addJoin_iff {d : Draft} {j : Join} {path : String} :
    (d.addJoin j).Knows (some path) ↔ d.Knows (some path) ∨ j.path = path := by
  constructor
  · rintro ⟨k, hk, hpath⟩
    unfold addJoin at hk
    split at hk
    · exact .inl ⟨k, hk, hpath⟩
    · rcases List.mem_append.mp hk with hk | hk
      · exact .inl ⟨k, hk, hpath⟩
      · rw [List.mem_singleton.mp hk] at hpath
        exact .inr hpath
  · rintro (hknown | rfl)
    · exact hknown.mono (prefix_addJoin d j)
    · exact knows_addJoin d j

theorem knows_foldl_addJoin_iff {d : Draft} {js : List Join} {path : String} :
    (js.foldl addJoin d).Knows (some path) ↔
      d.Knows (some path) ∨ ∃ j ∈ js, j.path = path := by
  induction js generalizing d with
  | nil => simp
  | cons j rest ih =>
    rw [List.foldl_cons, ih, knows_addJoin_iff, or_assoc, List.exists_mem_cons_iff]

/-- A draft gains nothing exactly by the joins of paths that it knows. -/
theorem foldl_addJoin_joins_iff {d : Draft} {js : List Join} :
    (js.foldl addJoin d).joins = d.joins ↔ ∀ j ∈ js, d.Knows (some j.path) := by
  constructor
  · intro h j hj
    exact (knows_foldl_addJoin hj d).mono (h ▸ List.prefix_rfl)
  · intro h
    induction js with
    | nil => rfl
    | cons j rest ih =>
      obtain ⟨k, hk, hpath⟩ := h j List.mem_cons_self
      have hsame : d.addJoin j = d :=
        if_pos (List.any_eq_true.mpr ⟨k, hk, by simpa using hpath⟩)
      rw [List.foldl_cons, hsame]
      exact ih fun j hj => h j (List.mem_cons_of_mem _ hj)

/-! ## Keys -/

/-- Sorting takes the terms one by one. -/
theorem sortKeys_shows (d : Draft) (ts : List ResolvedTerm) :
    (d.sortKeys ts).1.map (fun k => (k.ref.column, k.direction, k.nulls)) =
      ts.map (fun t => (t.path.column, t.direction, t.nulls)) := by
  induction ts generalizing d with
  | nil => rfl
  | cons t rest ih =>
    show _ :: ((d.column t.path).2.sortKeys rest).1.map _ = _
    rw [ih]
    rfl

end Draft

namespace Statement

/-! ## The joins of a count -/

theorem draft_joins (p : Predicate) (terms : List ResolvedTerm) (w : Option Window) :
    (draft p terms w).joins =
      (((terms.map ResolvedTerm.path).flatMap AttributePath.joins).foldl Draft.addJoin
        (draft p [] none)).joins := by
  rw [draft_unsorted, draft, ← Draft.after_after]
  rfl

theorem knows_draft {p : Predicate} {path : String} :
    (draft p [] none).Knows (some path) ↔
      ∃ used ∈ p.paths, ∃ j ∈ used.joins, j.path = path := by
  have hfold : (draft p [] none).Knows (some path) ↔
      ((p.paths.flatMap AttributePath.joins).foldl Draft.addJoin Draft.empty).Knows
        (some path) := by
    rw [draft_unsorted]
    exact Iff.rfl
  rw [hfold, Draft.knows_foldl_addJoin_iff, or_iff_right fun ⟨k, hk, _⟩ => nomatch hk]
  simp only [List.mem_flatMap]
  constructor
  · rintro ⟨j, ⟨used, hused, hj⟩, hpath⟩
    exact ⟨used, hused, j, hj, hpath⟩
  · rintro ⟨used, hused, j, hj, hpath⟩
    exact ⟨j, ⟨used, hused, hj⟩, hpath⟩

/-- The joins of a search are those of its count, and then the order's own. -/
theorem select_joins_append (table : String) (p : Predicate) (terms : List ResolvedTerm)
    (w : Option Window) :
    ∃ more, (select table p terms w).joins = (count table p).joins ++ more ∧
      (more = [] ↔ ∀ t ∈ terms, ∀ j ∈ t.path.joins,
        ∃ used ∈ p.paths, ∃ k ∈ used.joins, k.path = j.path) := by
  have hprefix : (draft p [] none).joins <+: (draft p terms w).joins := by
    rw [draft_unsorted]
    exact Draft.prefix_after_append _ _ _ _ _
  obtain ⟨more, hmore⟩ := hprefix
  have hgained : more = [] ↔ (draft p terms w).joins = (draft p [] none).joins := by
    rw [← hmore]
    exact List.append_right_eq_self.symm
  refine ⟨more.map Prod.snd, ?_, ?_⟩
  · rw [select_joins, count_joins, ← hmore, List.map_append]
  · rw [List.map_eq_nil_iff, hgained, draft_joins, Draft.foldl_addJoin_joins_iff]
    simp only [knows_draft, List.mem_flatMap, List.mem_map]
    constructor
    · intro h t ht j hj
      exact h j ⟨_, ⟨t, ht, rfl⟩, hj⟩
    · rintro h j ⟨_, ⟨t, ht, rfl⟩, hj⟩
      exact h t ht j hj

theorem count_joins_uses (table : String) (p : Predicate) :
    (count table p).joins.map (fun j => (j.table, j.references, j.column)) =
      (Join.firstUses (p.paths.flatMap AttributePath.joins)).map
        (fun j => (j.table, j.references, j.column)) := by
  have huses := congrArg (List.map Prod.snd) (Draft.after_uses p.paths p.values)
  rw [List.map_map, List.map_map] at huses
  rw [count_joins, draft_unsorted, List.map_map]
  exact huses

/-! ## The texts -/

theorem root_text (s : String) : s ++ " " ++ rootAlias = s ++ " t0" := by
  rw [String.append_assoc]
  rfl

theorem count_sql (b : Backend) (table : String) (p : Predicate) :
    (count table p).sql b =
      "SELECT COUNT(*) FROM " ++ quoteIdentifier table ++ " t0" ++
        joinsSql 1 (count table p).joins ++ conditionSql b (count table p).condition := by
  have hhead : "SELECT " ++ resultSql .count ++ " FROM " = "SELECT COUNT(*) FROM " := by decide
  show "SELECT " ++ resultSql .count ++ " FROM " ++ quoteIdentifier table ++ " " ++ rootAlias ++
    joinsSql 1 (count table p).joins ++ conditionSql b (count table p).condition ++ "" ++ "" = _
  rw [hhead, root_text, String.append_empty, String.append_empty]

theorem select_sql (b : Backend) (table : String) (p : Predicate) (terms : List ResolvedTerm)
    (w : Option Window) :
    (select table p terms w).sql b =
      "SELECT t0.* FROM " ++ quoteIdentifier table ++ " t0" ++
        joinsSql 1 (select table p terms w).joins ++ conditionSql b (count table p).condition ++
        orderSql b (select table p terms w).order ++
        windowSql b (select table p terms w).window := by
  have hhead : "SELECT " ++ resultSql .rows ++ " FROM " = "SELECT t0.* FROM " := by decide
  show "SELECT " ++ resultSql .rows ++ " FROM " ++ quoteIdentifier table ++ " " ++ rootAlias ++
    joinsSql 1 (select table p terms w).joins ++ conditionSql b (count table p).condition ++
      orderSql b (select table p terms w).order ++ windowSql b (select table p terms w).window = _
  rw [hhead, root_text]

/-- Only a predicate that matches every row has no condition. -/
theorem count_conditionSql (b : Backend) (table : String) (p : Predicate) :
    conditionSql b (count table p).condition = "" ↔ p = .matchAll := by
  show conditionSql b (Draft.empty.optionalCondition p).1 = "" ↔ _
  rw [← Predicate.matchesAll_iff]
  unfold Draft.optionalCondition
  by_cases h : p.matchesAll = true
  · rw [if_pos h]
    exact iff_of_true rfl h
  · rw [if_neg h]
    refine iff_of_false (fun hempty => ?_) h
    have hlength := congrArg String.length hempty
    simp [conditionSql] at hlength

/-- A plan's search has its count's condition.  For each dialect, entity and predicate there are
the predicate's joins and a condition that every order and every window leave as they are, down
to the aliases and the placeholders.  The count is these.  A search puts the order's own joins
between them, if there are any, and the order and the window behind; and behind the count's
parameters it has those of its window. -/
theorem condition_shared (b : Backend) (entity : Entity) (p : Predicate) :
    ∃ (joins : List JoinClause) (condition : String),
      joins.map (fun j => (j.table, j.references, j.column)) =
          (Join.firstUses (p.paths.flatMap AttributePath.joins)).map
            (fun j => (j.table, j.references, j.column)) ∧
      (condition = "" ↔ p = .matchAll) ∧
      ∀ terms,
        ((Plan.mk entity p terms).count.sql b =
          "SELECT COUNT(*) FROM " ++ quoteIdentifier entity.table ++ " t0" ++
            joinsSql 1 joins ++ condition) ∧
        ∀ w, ∃ (more : List JoinClause) (keys : List SortKey) (bounds : List Value),
          ((Plan.mk entity p terms).select w).sql b =
            "SELECT t0.* FROM " ++ quoteIdentifier entity.table ++ " t0" ++
              joinsSql 1 joins ++ joinsSql (joins.length + 1) more ++ condition ++
              orderSql b keys ++
              windowSql b (w.map fun _ =>
                { limit := (Plan.mk entity p terms).count.params.length + 1,
                  offset := (Plan.mk entity p terms).count.params.length + 2 }) ∧
          (joinsSql (joins.length + 1) more = "" ↔ ∀ t ∈ terms, ∀ j ∈ t.path.joins,
            ∃ used ∈ p.paths, ∃ k ∈ used.joins, k.path = j.path) ∧
          keys.map (fun k => (k.ref.column, k.direction, k.nulls)) =
            terms.map (fun t => (t.path.column, t.direction, t.nulls)) ∧
          ((Plan.mk entity p terms).select w).params =
            (Plan.mk entity p terms).count.params ++ bounds ∧
          Window.Binds w bounds := by
  refine ⟨(count entity.table p).joins, conditionSql b (count entity.table p).condition,
    count_joins_uses entity.table p, count_conditionSql b entity.table p,
    fun terms => ⟨count_sql b entity.table p, fun w => ?_⟩⟩
  obtain ⟨more, hjoins, hmore⟩ := select_joins_append entity.table p terms w
  refine ⟨more, (select entity.table p terms w).order, Draft.windowValues w, ?_, ?_, ?_, ?_,
    Window.binds_windowValues w⟩
  · have hwindow : (select entity.table p terms w).window = w.map fun _ =>
        { limit := (count entity.table p).params.length + 1,
          offset := (count entity.table p).params.length + 2 } := by
      show ((((Draft.empty.optionalCondition p).2.sortKeys terms).2).window w).1 = _
      rw [Draft.window_places, params_before_window, count_params]
    show (select entity.table p terms w).sql b = _
    rw [select_sql, hjoins, joinsSql_append, hwindow, ← String.append_assoc, Nat.add_comm 1]
    rfl
  · rw [joinsSql_eq_empty, hmore]
  · exact Draft.sortKeys_shows _ terms
  · show (select entity.table p terms w).params = (count entity.table p).params ++ _
    rw [select_params, count_params]

end Statement
end Sql
end TableSearch
