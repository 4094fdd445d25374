/-
What drafting a statement leaves behind.

A draft only grows.  `after` says by what: by the joins of the paths that were used, each
once, and by the values that were bound.  Every drafting function leaves the draft
`after` the paths and the values of what it drafted, so the order in which a statement's
parts were drafted is the order of these lists.

A draft of chained joins is sound: the number of a table stands for one relation from the
moment its join is there, and the join says of its parent what the draft says in the end.
-/
import TableSearch.Sql.Statement
import TableSearch.Proofs.Schema.Walk

namespace TableSearch

namespace Predicate

mutual

def values : Predicate → List Value
  | .and parts => valuesOf parts
  | .compare _ _ value => [value]
  | .like _ pattern _ => [.text pattern]
  | .isNull _ => []
  | .isNotNull _ => []
  | .isIn _ items => items

def valuesOf : List Predicate → List Value
  | [] => []
  | p :: rest => p.values ++ valuesOf rest

end

end Predicate

namespace Sql
namespace Draft

/-! ## Growth -/

/-- The draft with the joins of more paths and with more parameters. -/
def after (d : Draft) (paths : List AttributePath) (values : List Value) : Draft where
  joins := ((paths.flatMap AttributePath.joins).foldl addJoin d).joins
  params := d.params ++ values

theorem addJoin_params (d : Draft) (j : Join) : (d.addJoin j).params = d.params := by
  unfold addJoin
  split <;> rfl

theorem foldl_addJoin_params (d : Draft) (js : List Join) :
    (js.foldl addJoin d).params = d.params := by
  induction js generalizing d with
  | nil => rfl
  | cons j rest ih => rw [List.foldl_cons, ih, addJoin_params]

/-- Parameters do not matter to joins. -/
theorem addJoin_congr {d d' : Draft} (h : d.joins = d'.joins) (j : Join) :
    (d.addJoin j).joins = (d'.addJoin j).joins := by
  have htable : ∀ path, d.tableOf path = d'.tableOf path := by
    intro path
    cases path with
    | none => rfl
    | some path => rw [tableOf, tableOf, h]
  unfold addJoin
  rw [h, htable]
  split
  · exact h
  · rfl

theorem foldl_addJoin_congr {d d' : Draft} (h : d.joins = d'.joins) (js : List Join) :
    (js.foldl addJoin d).joins = (js.foldl addJoin d').joins := by
  induction js generalizing d d' with
  | nil => exact h
  | cons j rest ih => exact ih (addJoin_congr h j)

@[simp] theorem after_nil (d : Draft) : d.after [] [] = d := by
  simp [after]

theorem after_after (d : Draft) (ps qs : List AttributePath) (vs ws : List Value) :
    (d.after ps vs).after qs ws = d.after (ps ++ qs) (vs ++ ws) := by
  have hjoins : ((d.after ps vs).after qs ws).joins = (d.after (ps ++ qs) (vs ++ ws)).joins := by
    simp only [after, List.flatMap_append, List.foldl_append]
    refine foldl_addJoin_congr ?_ _
    rfl
  have hparams : ((d.after ps vs).after qs ws).params =
      (d.after (ps ++ qs) (vs ++ ws)).params := by
    simp [after]
  cases h : (d.after ps vs).after qs ws
  cases h' : d.after (ps ++ qs) (vs ++ ws)
  rw [h, h'] at hjoins hparams
  cases hjoins
  cases hparams
  rfl

theorem column_draft (d : Draft) (path : AttributePath) :
    (d.column path).2 = d.after [path] [] := by
  have hparams := foldl_addJoin_params d path.joins
  show path.joins.foldl addJoin d = _
  cases h : path.joins.foldl addJoin d
  rw [h] at hparams
  simp only [after, List.flatMap_cons, List.flatMap_nil, List.append_nil, h, ← hparams]

theorem column_params (d : Draft) (path : AttributePath) : (d.column path).2.params = d.params :=
  foldl_addJoin_params d path.joins

theorem bind_draft (d : Draft) (v : Value) : (d.bind v).2 = d.after [] [v] := rfl

theorem bindAll_draft (d : Draft) (vs : List Value) : (d.bindAll vs).2 = d.after [] vs := rfl

mutual

/-- A condition leaves the joins of its paths and its values, depth first. -/
theorem condition_draft (d : Draft) (p : Predicate) :
    (d.condition p).2 = d.after p.paths p.values := by
  cases p with
  | and parts =>
    cases parts with
    | nil => exact (after_nil d).symm
    | cons p rest => exact conditions_draft d (p :: rest)
  | compare path op value =>
    show ((d.column path).2.bind value).2 = _
    rw [bind_draft, column_draft, after_after]
    rfl
  | like path pattern escape =>
    show ((d.column path).2.bind (.text pattern)).2 = _
    rw [bind_draft, column_draft, after_after]
    rfl
  | isNull path => exact column_draft d path
  | isNotNull path => exact column_draft d path
  | isIn path items =>
    cases items with
    | nil => exact column_draft d path
    | cons v rest =>
      show ((d.column path).2.bindAll (v :: rest)).2 = _
      rw [bindAll_draft, column_draft, after_after]
      rfl

theorem conditions_draft (d : Draft) (ps : List Predicate) :
    (d.conditions ps).2 = d.after (Predicate.pathsOf ps) (Predicate.valuesOf ps) := by
  cases ps with
  | nil => exact (after_nil d).symm
  | cons p rest =>
    show ((d.condition p).2.conditions rest).2 = _
    rw [conditions_draft, condition_draft, after_after]
    rfl

end

theorem optionalCondition_draft (d : Draft) (p : Predicate) :
    (d.optionalCondition p).2 = d.after p.paths p.values := by
  unfold optionalCondition
  by_cases h : p.matchesAll = true
  · rw [if_pos h, Predicate.matchesAll_iff.mp h]
    exact (after_nil d).symm
  · rw [if_neg h]
    exact condition_draft d p

theorem sortKeys_draft (d : Draft) (ts : List ResolvedTerm) :
    (d.sortKeys ts).2 = d.after (ts.map ResolvedTerm.path) [] := by
  induction ts generalizing d with
  | nil => exact (after_nil d).symm
  | cons t rest ih =>
    show ((d.column t.path).2.sortKeys rest).2 = _
    rw [ih, column_draft, after_after]
    rfl

def windowValues : Option Window → List Value
  | none => []
  | some w =>
      [.int (Int64.ofNat w.limit.toNat), .int (Int64.ofNat (min w.offset.toNat (2 ^ 63 - 1)))]

theorem window_draft (d : Draft) (w : Option Window) :
    (d.window w).2 = d.after [] (windowValues w) := by
  cases w with
  | none => exact (after_nil d).symm
  | some w =>
    show ((d.bind _).2.bind _).2 = _
    rw [bind_draft, bind_draft, after_after]
    rfl

theorem window_places (d : Draft) (w : Option Window) :
    (d.window w).1 = w.map fun _ =>
      { limit := d.params.length + 1, offset := d.params.length + 2 } := by
  cases w with
  | none => rfl
  | some w =>
    show some (WindowParams.mk (d.params.length + 1) ((d.params ++ [_]).length + 1)) = _
    rw [List.length_append]
    rfl

/-! ## Numbers of tables -/

def Knows (d : Draft) : Option String → Prop
  | none => True
  | some path => ∃ k ∈ d.joins, k.1 = path

theorem prefix_addJoin (d : Draft) (j : Join) : d.joins <+: (d.addJoin j).joins := by
  unfold addJoin
  split
  · exact List.prefix_rfl
  · exact List.prefix_append _ _

theorem prefix_foldl_addJoin (d : Draft) (js : List Join) :
    d.joins <+: (js.foldl addJoin d).joins := by
  induction js generalizing d with
  | nil => exact List.prefix_rfl
  | cons j rest ih => exact (prefix_addJoin d j).trans (ih _)

theorem Knows.mono {d d' : Draft} (h : d.joins <+: d'.joins) {path : Option String}
    (hk : d.Knows path) : d'.Knows path := by
  cases path with
  | none => trivial
  | some path =>
    obtain ⟨k, hk, hpath⟩ := hk
    exact ⟨k, h.subset hk, hpath⟩

/-- A path keeps its number. -/
theorem tableOf_stable {d d' : Draft} (h : d.joins <+: d'.joins) {path : Option String}
    (hk : d.Knows path) : d'.tableOf path = d.tableOf path := by
  cases path with
  | none => rfl
  | some path =>
    cases hi : d.joins.findIdx? fun j => j.1 == path with
    | none =>
      obtain ⟨k, hk, hpath⟩ := hk
      have := List.findIdx?_eq_none_iff.mp hi k hk
      simp [hpath] at this
    | some i => simp only [tableOf, hi, h.findIdx?_eq_some hi]

theorem tableOf_le (d : Draft) (path : Option String) : d.tableOf path ≤ d.joins.length := by
  cases path with
  | none => exact Nat.zero_le _
  | some path =>
    unfold tableOf
    dsimp only
    split
    · next i hi =>
      obtain ⟨hlt, _⟩ := List.findIdx?_eq_some_iff_getElem.mp hi
      exact hlt
    · exact Nat.zero_le _

theorem knows_addJoin (d : Draft) (j : Join) : (d.addJoin j).Knows (some j.path) := by
  unfold addJoin
  split
  · next h =>
    obtain ⟨k, hk, hpath⟩ := List.any_eq_true.mp h
    exact ⟨k, hk, by simpa using hpath⟩
  · exact ⟨_, List.mem_append_right _ (List.mem_singleton_self _), rfl⟩

theorem knows_foldl_addJoin {js : List Join} {j : Join} (h : j ∈ js) (d : Draft) :
    (js.foldl addJoin d).Knows (some j.path) := by
  obtain ⟨before, rest, rfl⟩ := List.append_of_mem h
  rw [List.foldl_append, List.foldl_cons]
  exact (knows_addJoin _ j).mono (prefix_foldl_addJoin _ rest)

/-- Chained joins lead to a path that the draft knows. -/
theorem knows_of_chained {start goal : Option String} {js : List Join}
    (hc : AttributePath.Chained start js goal) (d : Draft) (hs : d.Knows start) :
    (js.foldl addJoin d).Knows goal := by
  induction js generalizing start d with
  | nil =>
    have hgoal : start = goal := hc
    rw [← hgoal]
    exact hs
  | cons j rest ih =>
    obtain ⟨_, hc⟩ := hc
    exact ih hc _ (knows_addJoin d j)

/-! ## Sound drafts -/

def clause (d : Draft) (j : Join) : JoinClause where
  table := j.table
  references := j.references
  parent := d.tableOf j.parent
  column := j.column

/-- The draft has a join at a place, after its parent. -/
structure Declares (d : Draft) (i : Nat) (j : Join) : Prop where
  entry : d.joins[i]? = some (j.path, d.clause j)
  number : d.tableOf (some j.path) = i + 1
  knows : d.Knows j.parent
  parent_le : d.tableOf j.parent ≤ i

theorem Declares.mono {d d' : Draft} (h : d.joins <+: d'.joins) {i : Nat} {j : Join}
    (hd : d.Declares i j) : d'.Declares i j := by
  have hparent := tableOf_stable h hd.knows
  have hclause : d'.clause j = d.clause j := by
    rw [clause, clause, hparent]
  have hi : i < d.joins.length := (List.getElem?_eq_some_iff.mp hd.entry).1
  have hknown : d.Knows (some j.path) := ⟨_, List.mem_of_getElem? hd.entry, rfl⟩
  constructor
  · rw [hclause, ← hd.entry, List.getElem?_eq_getElem hi]
    exact List.prefix_iff_getElem?.mp h i hi
  · rw [tableOf_stable h hknown]
    exact hd.number
  · exact hd.knows.mono h
  · rw [hparent]
    exact hd.parent_le

/-- Every join of a draft stands for a join with a property. -/
def Sound (d : Draft) (R : Join → Prop) : Prop :=
  ∀ i k, d.joins[i]? = some k → ∃ j, R j ∧ d.Declares i j

theorem sound_empty (R : Join → Prop) : empty.Sound R := by
  intro i k h
  cases h

theorem Sound.addJoin {d : Draft} {R : Join → Prop} (hd : d.Sound R) {j : Join} (hj : R j)
    (hk : d.Knows j.parent) : (d.addJoin j).Sound R := by
  by_cases hany : (d.joins.any fun k => k.1 == j.path) = true
  · have hsame : d.addJoin j = d := if_pos hany
    rw [hsame]
    exact hd
  · have hjoins : (d.addJoin j).joins = d.joins ++ [(j.path, d.clause j)] := by
      rw [Draft.addJoin, if_neg hany]
      rfl
    have hprefix := prefix_addJoin d j
    have hparent := tableOf_stable hprefix hk
    intro i k hi
    rcases Nat.lt_trichotomy i d.joins.length with hlt | heq | hgt
    · rw [hjoins, List.getElem?_append_left hlt] at hi
      obtain ⟨j', hj', hdecl⟩ := hd i k hi
      exact ⟨j', hj', hdecl.mono hprefix⟩
    · refine ⟨j, hj, ?_, ?_, hk.mono hprefix, ?_⟩
      · rw [heq, hjoins, List.getElem?_concat_length, clause, clause, hparent]
      · have hnone : (d.joins.findIdx? fun k => k.1 == j.path) = none := by
          rw [List.findIdx?_eq_none_iff]
          intro k hk
          by_contra hpath
          exact hany (List.any_eq_true.mpr ⟨k, hk, by simpa using hpath⟩)
        simp [tableOf, hjoins, List.findIdx?_append, hnone, heq]
      · rw [hparent, heq]
        exact tableOf_le d j.parent
    · have hlen : (d.addJoin j).joins.length ≤ i := by
        rw [hjoins, List.length_append, List.length_singleton]
        exact hgt
      rw [List.getElem?_eq_none hlen] at hi
      cases hi

theorem Sound.foldl_addJoin {R : Join → Prop} {start goal : Option String} {js : List Join}
    (hc : AttributePath.Chained start js goal) (hjs : ∀ j ∈ js, R j) {d : Draft}
    (hd : d.Sound R) (hs : d.Knows start) : (js.foldl Draft.addJoin d).Sound R := by
  induction js generalizing start d with
  | nil => exact hd
  | cons j rest ih =>
    obtain ⟨hparent, hc⟩ := hc
    have hknown : d.Knows j.parent := by
      rw [hparent]
      exact hs
    exact ih hc (fun k hk => hjs k (List.mem_cons_of_mem j hk))
      (hd.addJoin (hjs j List.mem_cons_self) hknown) (knows_addJoin d j)

theorem Sound.congr {d d' : Draft} {R : Join → Prop} (h : d.joins = d'.joins)
    (hd : d.Sound R) : d'.Sound R := by
  intro i k hi
  obtain ⟨j, hj, hdecl⟩ := hd i k (by rw [h, hi])
  exact ⟨j, hj, hdecl.mono (h ▸ List.prefix_rfl)⟩

/-- A draft stays sound when it takes up chained paths. -/
theorem Sound.after {d : Draft} {R : Join → Prop} (hd : d.Sound R) {paths : List AttributePath}
    (hc : ∀ path ∈ paths, AttributePath.Chained none path.joins path.owner)
    (hR : ∀ path ∈ paths, ∀ j ∈ path.joins, R j) (values : List Value) :
    (d.after paths values).Sound R := by
  refine Sound.congr (d := (paths.flatMap AttributePath.joins).foldl Draft.addJoin d) rfl ?_
  clear values
  induction paths generalizing d with
  | nil => exact hd
  | cons path rest ih =>
    rw [List.flatMap_cons, List.foldl_append]
    exact ih (hd.foldl_addJoin (hc path List.mem_cons_self) (hR path List.mem_cons_self) trivial)
      (fun p hp => hc p (List.mem_cons_of_mem path hp))
      (fun p hp => hR p (List.mem_cons_of_mem path hp))

theorem prefix_after (d : Draft) (paths : List AttributePath) (values : List Value) :
    d.joins <+: (d.after paths values).joins :=
  prefix_foldl_addJoin d _

theorem prefix_after_append (d : Draft) (ps qs : List AttributePath) (vs ws : List Value) :
    (d.after ps vs).joins <+: (d.after (ps ++ qs) ws).joins := by
  simp only [after, List.flatMap_append, List.foldl_append]
  exact prefix_foldl_addJoin _ _

theorem knows_after {paths : List AttributePath} {path : AttributePath} (h : path ∈ paths)
    {j : Join} (hj : j ∈ path.joins) (d : Draft) (values : List Value) :
    (d.after paths values).Knows (some j.path) :=
  knows_foldl_addJoin (List.mem_flatMap.mpr ⟨path, h, hj⟩) d

theorem knows_owner_after {paths : List AttributePath} {path : AttributePath} (h : path ∈ paths)
    (hc : AttributePath.Chained none path.joins path.owner) (d : Draft) (values : List Value) :
    (d.after paths values).Knows path.owner := by
  obtain ⟨before, rest, rfl⟩ := List.append_of_mem h
  have hknown := knows_of_chained hc ((before.flatMap AttributePath.joins).foldl addJoin d) trivial
  refine Knows.mono (d := path.joins.foldl addJoin _) ?_ hknown
  simp only [after, List.flatMap_append, List.flatMap_cons, List.foldl_append]
  exact prefix_foldl_addJoin _ _

/-- A path determines the join that a sound draft has for it. -/
theorem Sound.declares {d : Draft} {R : Join → Prop} (hd : d.Sound R)
    (hR : ∀ j j', R j → R j' → j.path = j'.path → j = j') {j : Join} (hj : R j)
    (hk : d.Knows (some j.path)) : ∃ i, d.Declares i j := by
  obtain ⟨k, hk, hpath⟩ := hk
  obtain ⟨i, hi⟩ := List.getElem?_of_mem hk
  obtain ⟨j', hj', hdecl⟩ := hd i k hi
  have hsame : k = (j'.path, d.clause j') := Option.some.inj (hi.symm.trans hdecl.entry)
  have hpaths : j'.path = j.path := by
    rw [← hpath, hsame]
  rw [hR j' j hj' hj hpaths] at hdecl
  exact ⟨i, hdecl⟩

/-! ## Drafts of resolved paths -/

section Resolved

variable {r : Registry} {root : Entity} {paths : List AttributePath}

def Resolved (r : Registry) (root : Entity) (paths : List AttributePath) : Prop :=
  ∀ path ∈ paths, ∃ s, AttributePath.resolve r root s = .ok path

theorem Resolved.chained (h : Resolved r root paths) :
    ∀ path ∈ paths, AttributePath.Chained none path.joins path.owner := by
  intro path hpath
  obtain ⟨s, hs⟩ := h path hpath
  exact (AttributePath.walk_of_resolve hs).chained

theorem Resolved.relates (h : Resolved r root paths) :
    ∀ path ∈ paths, ∀ j ∈ path.joins, AttributePath.Relates r root j := by
  intro path hpath
  obtain ⟨s, hs⟩ := h path hpath
  exact AttributePath.relates_of_resolve hs

def Uses (r : Registry) (root : Entity) (paths : List AttributePath) (j : Join) : Prop :=
  AttributePath.Relates r root j ∧ ∃ path ∈ paths, j ∈ path.joins

/-- Every join of resolved paths is that of a relation which one of them uses. -/
theorem Resolved.sound (h : Resolved r root paths) (values : List Value) :
    (empty.after paths values).Sound (Uses r root paths) :=
  (sound_empty _).after h.chained
    (fun path hpath j hj => ⟨h.relates path hpath j hj, path, hpath, hj⟩) values

/-- Every relation that resolved paths use has its join. -/
theorem Resolved.declares (h : Resolved r root paths) (values : List Value)
    {path : AttributePath} (hpath : path ∈ paths) :
    ∀ j ∈ path.joins, ∃ i, (empty.after paths values).Declares i j := by
  intro j hj
  exact (h.sound values).declares (fun _ _ hu hu' he => hu.1.eq_of_path hu'.1 he)
    ⟨h.relates path hpath j hj, path, hpath, hj⟩ (knows_after hpath hj empty values)

end Resolved

end Draft

/-! ## Drafts of statements -/

namespace Statement

/-- What a search drafts: its filters, then its order, then its window. -/
def draft (p : Predicate) (terms : List ResolvedTerm) (w : Option Window) : Draft :=
  Draft.empty.after (p.paths ++ terms.map ResolvedTerm.path) (p.values ++ Draft.windowValues w)

theorem draft_unsorted (p : Predicate) : draft p [] none = Draft.empty.after p.paths p.values := by
  simp [draft, Draft.windowValues]

theorem prefix_draft (p : Predicate) (terms : List ResolvedTerm) (w : Option Window) :
    (Draft.empty.after p.paths p.values).joins <+: (draft p terms w).joins := by
  have hgrown : draft p terms w = (Draft.empty.after p.paths p.values).after
      (terms.map ResolvedTerm.path) (Draft.windowValues w) :=
    (Draft.after_after _ _ _ _ _).symm
  rw [hgrown]
  exact Draft.prefix_after _ _ _

theorem select_draft (p : Predicate) (terms : List ResolvedTerm) (w : Option Window) :
    ((((Draft.empty.optionalCondition p).2.sortKeys terms).2).window w).2 = draft p terms w := by
  rw [Draft.window_draft, Draft.sortKeys_draft, Draft.optionalCondition_draft, Draft.after_after,
    Draft.after_after, List.append_nil]
  rfl

/-- Only the filters have bound values when the window binds its own. -/
theorem params_before_window (p : Predicate) (terms : List ResolvedTerm) :
    ((Draft.empty.optionalCondition p).2.sortKeys terms).2.params = p.values := by
  rw [Draft.sortKeys_draft, Draft.optionalCondition_draft, Draft.after_after]
  exact List.append_nil p.values

theorem select_joins (table : String) (p : Predicate) (terms : List ResolvedTerm)
    (w : Option Window) :
    (select table p terms w).joins = (draft p terms w).joins.map Prod.snd := by
  rw [← select_draft]
  rfl

theorem select_params (table : String) (p : Predicate) (terms : List ResolvedTerm)
    (w : Option Window) : (select table p terms w).params = p.values ++ Draft.windowValues w := by
  show ((((Draft.empty.optionalCondition p).2.sortKeys terms).2).window w).2.params = _
  rw [select_draft]
  rfl

theorem count_joins (table : String) (p : Predicate) :
    (count table p).joins = (draft p [] none).joins.map Prod.snd := by
  rw [← select_draft]
  rfl

theorem count_params (table : String) (p : Predicate) : (count table p).params = p.values := by
  show (Draft.empty.optionalCondition p).2.params = _
  rw [Draft.optionalCondition_draft]
  rfl

end Statement
end Sql
end TableSearch
