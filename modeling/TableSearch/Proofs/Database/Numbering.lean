/-
Rows by the numbers of a draft.

A statement finds the tables of its draft's joins in a database.  When the draft is sound,
the table and the entry of a tuple under the number of a relation are the place that the
relation's joins lead to: `place_of_chained`.
-/
import TableSearch.Proofs.Database.Product
import TableSearch.Proofs.Sql.Condition

namespace TableSearch
namespace Sql

open AttributePath (Chained)

/-! ## Prepared statements -/

namespace Statement

theorem lookupTable_eq_ok {d : Database} {name : String} {t : Table} :
    lookupTable d name = .ok t ↔ d.table? name = some t := by
  unfold lookupTable
  cases d.table? name with
  | none => simp
  | some t' => simp

theorem mapM_lookupTable_eq_ok {d : Database} {js : List JoinClause} {joined : List Table} :
    (js.mapM fun j => lookupTable d j.table) = .ok joined ↔
      js.map (fun j => d.table? j.table) = joined.map some := by
  rw [Success.mapM_eq_ok]
  simp only [lookupTable_eq_ok]
  rw [← List.forall₂_eq_eq_eq, List.forall₂_map_left_iff, List.forall₂_map_right_iff]

/-- A statement is prepared when it is small enough and finds its tables and columns. -/
theorem tables_eq_ok {m : Meaning} {s : Statement} {d : Database} {root : Table}
    {joined : List Table} :
    s.tables m d = .ok (root, joined) ↔
      s.checkLimits m.limits = .ok () ∧ d.table? s.table = some root ∧
        s.joins.map (fun j => d.table? j.table) = joined.map some ∧
        ∀ r ∈ s.refs, checkRef (root :: joined) r = .ok () := by
  rw [← mapM_lookupTable_eq_ok, ← lookupTable_eq_ok, ← Success.forM_eq_ok]
  unfold tables
  constructor
  · intro h
    obtain ⟨_, hlimits, h⟩ := Success.bind_eq_ok.mp h
    obtain ⟨root', hroot, h⟩ := Success.bind_eq_ok.mp h
    obtain ⟨joined', hjoined, h⟩ := Success.bind_eq_ok.mp h
    obtain ⟨_, hrefs, h⟩ := Success.bind_eq_ok.mp h
    cases h
    exact ⟨hlimits, hroot, hjoined, hrefs⟩
  · rintro ⟨hlimits, hroot, hjoined, hrefs⟩
    rw [hlimits, hroot, hjoined]
    show (refs s).forM (checkRef (root :: joined)) >>= _ = _
    rw [hrefs]
    rfl

end Statement

namespace Draft

variable {m : Meaning} {d : Database} {D : Draft} {root : Table} {joined : List Table}

/-! ## Tables by number -/

def Finds (d : Database) (D : Draft) (joined : List Table) : Prop :=
  D.joins.map (fun k => d.table? k.2.table) = joined.map some

theorem Finds.length_eq (h : D.Finds d joined) : joined.length = D.joins.length := by
  have hlen := congrArg List.length h
  rw [List.length_map, List.length_map] at hlen
  exact hlen.symm

theorem Finds.get (h : D.Finds d joined) {i : Nat} {k : String × JoinClause}
    (hi : D.joins[i]? = some k) : ∃ t, joined[i]? = some t ∧ d.table? k.2.table = some t := by
  have hget := congrArg (fun l => l[i]?) h
  simp only [List.getElem?_map, hi, Option.map_some] at hget
  cases ht : joined[i]? with
  | none => simp [ht] at hget
  | some t => exact ⟨t, rfl, by simpa [ht] using hget⟩

def steps (D : Draft) (joined : List Table) : List (JoinClause × Table) :=
  (D.joins.map Prod.snd).zip joined

theorem getElem?_steps {i : Nat} {step : JoinClause × Table}
    (h : (D.steps joined)[i]? = some step) :
    (∃ path, D.joins[i]? = some (path, step.1)) ∧ joined[i]? = some step.2 := by
  obtain ⟨hclause, ht⟩ := List.getElem?_zip_eq_some.mp h
  rw [List.getElem?_map] at hclause
  cases hk : D.joins[i]? with
  | none => simp [hk] at hclause
  | some k =>
    rw [hk, Option.map_some] at hclause
    exact ⟨⟨k.1, by rw [← Option.some.inj hclause]⟩, ht⟩

theorem length_steps (h : D.Finds d joined) : (D.steps joined).length = D.joins.length := by
  rw [steps, List.length_zip, List.length_map, h.length_eq, Nat.min_self]

theorem steps_aligned (root : Table) : Aligned (root :: joined) 1 (D.steps joined) := by
  intro i step hi
  rw [Nat.add_comm, List.getElem?_cons_succ]
  exact (getElem?_steps hi).2

theorem rows_fitting (root : Table) (joined : List Table) :
    Fitting (root :: joined) 1 (root.rows.map fun row => [some row]) := by
  intro tuple hmem
  obtain ⟨row, hrow, rfl⟩ := List.mem_map.mp hmem
  refine ⟨rfl, ?_⟩
  intro i row' hi
  cases i with
  | zero =>
    cases hi
    exact ⟨root, rfl, hrow⟩
  | succ i => cases hi

/-- A declared join has the table of its name under its number. -/
theorem Declares.table {i : Nat} {j : Join} (hj : D.Declares i j) (h : D.Finds d joined) :
    ∃ t, d.table? j.table = some t ∧
      (∀ root, (root :: joined)[D.tableOf (some j.path)]? = some t) ∧
      (D.steps joined)[i]? = some (D.clause j, t) := by
  obtain ⟨t, ht, htable⟩ := h.get hj.entry
  refine ⟨t, htable, ?_, ?_⟩
  · intro root
    rw [hj.number, List.getElem?_cons_succ]
    exact ht
  · refine List.getElem?_zip_eq_some.mpr ⟨?_, ht⟩
    rw [List.getElem?_map, hj.entry]
    rfl

/-! ## Places by number -/

def HasPlace (tables : List Table) (tuple : Tuple) (n : Nat) (p : Place) : Prop :=
  tables[n]? = some p.table ∧ tuple[n]? = some p.row

/-- Joins lead to the place under the number of their goal. -/
theorem place_of_chained {start goal : Option String} {js : List Join}
    (hc : Chained start js goal) (hdecl : ∀ j ∈ js, ∃ i, D.Declares i j)
    (h : D.Finds d joined) (row : Row) {p : Place}
    (hp : HasPlace (root :: joined)
      (Tuple.along m (root :: joined) [some row] (D.steps joined)) (D.tableOf start) p) :
    ∃ q, p.along m d js = some q ∧ HasPlace (root :: joined)
      (Tuple.along m (root :: joined) [some row] (D.steps joined)) (D.tableOf goal) q := by
  induction js generalizing start p with
  | nil =>
    have hgoal : start = goal := hc
    rw [hgoal] at hp
    exact ⟨p, rfl, hp⟩
  | cons j rest ih =>
    obtain ⟨hparent, hc⟩ := hc
    obtain ⟨i, hj⟩ := hdecl j List.mem_cons_self
    obtain ⟨t, htable, hnumber, hstep⟩ := hj.table h
    have hbefore : (D.clause j).parent < [some row].length + i := by
      rw [List.length_singleton]
      exact Nat.lt_of_le_of_lt hj.parent_le (by omega)
    have hentry := Tuple.along_entry (m := m) (root :: joined) [some row] hstep hbefore
    have hplace : ColumnRef.operand (root :: joined)
        (Tuple.along m (root :: joined) [some row] (D.steps joined))
        { table := (D.clause j).parent, column := (D.clause j).column } = p.operand j.column := by
      rw [← hparent] at hp
      exact ColumnRef.operand_of_place hp.1 hp.2
    rw [JoinClause.partners_eq, hplace] at hentry
    have hnext : HasPlace (root :: joined)
        (Tuple.along m (root :: joined) [some row] (D.steps joined)) (D.tableOf (some j.path))
        (p.follow m j.column t j.references) := by
      refine ⟨hnumber root, ?_⟩
      rw [hj.number, Place.follow_row, Nat.add_comm i 1]
      exact hentry
    obtain ⟨q, hq, hgoal⟩ := ih hc (fun k hk => hdecl k (List.mem_cons_of_mem j hk)) hnext
    refine ⟨q, ?_, hgoal⟩
    rw [Place.along, htable]
    exact hq

/-- The column of a path is read where the path leads. -/
theorem operand_ref {path : AttributePath} (hc : Chained none path.joins path.owner)
    (hdecl : ∀ j ∈ path.joins, ∃ i, D.Declares i j) (h : D.Finds d joined) (row : Row) :
    ∃ q, Place.along m d ⟨root, some row⟩ path.joins = some q ∧
      (D.ref path).operand (root :: joined)
        (Tuple.along m (root :: joined) [some row] (D.steps joined)) = q.operand path.column := by
  have hstart : HasPlace (root :: joined)
      (Tuple.along m (root :: joined) [some row] (D.steps joined)) (D.tableOf none)
      ⟨root, some row⟩ :=
    ⟨rfl, List.prefix_iff_getElem?.mp (Tuple.prefix_along _ _) 0 (by simp)⟩
  obtain ⟨q, hq, hplace⟩ := place_of_chained hc hdecl h row hstart
  exact ⟨q, hq, ColumnRef.operand_of_place hplace.1 hplace.2⟩

/-! ## Relations to one row -/

/-- Where a chain of relations leads to one row each, so do the joins for it. -/
theorem toOne_of_chained {start goal : Option String} {js : List Join}
    (hc : Chained start js goal) (hdecl : ∀ j ∈ js, ∃ i, D.Declares i j)
    (h : D.Finds d joined) {source : Table}
    (hsource : (root :: joined)[D.tableOf start]? = some source)
    (hone : source.toOne m d js = true) :
    ∀ j ∈ js, ∀ t, d.table? j.table = some t → (D.clause j).ToOne m (root :: joined) t := by
  induction js generalizing start source with
  | nil =>
    intro j hj
    cases hj
  | cons first rest ih =>
    obtain ⟨hparent, hc⟩ := hc
    obtain ⟨i, hfirst⟩ := hdecl first List.mem_cons_self
    obtain ⟨t, htable, hnumber, -⟩ := hfirst.table h
    simp only [Table.toOne, htable, Bool.and_eq_true] at hone
    intro j hj t' ht'
    rcases List.mem_cons.mp hj with rfl | hj
    · intro source' hsource'
      have hsame : source' = source := by
        have hparents : (D.clause j).parent = D.tableOf start := congrArg D.tableOf hparent
        rw [hparents, hsource] at hsource'
        exact (Option.some.inj hsource').symm
      rw [htable] at ht'
      cases ht'
      rw [hsame]
      exact hone.1
    · have hdecl := fun k hk => hdecl k (List.mem_cons_of_mem first hk)
      exact ih hc hdecl (hnumber root) hone.2 j hj t' ht'

/-- The steps of a sound draft are those of its relations. -/
theorem Sound.step {R : Join → Prop} (hsound : D.Sound R) (h : D.Finds d joined) {i : Nat}
    {step : JoinClause × Table} (hi : (D.steps joined)[i]? = some step) :
    ∃ j, R j ∧ D.Declares i j ∧ step.1 = D.clause j ∧ d.table? j.table = some step.2 := by
  obtain ⟨⟨path, hentry⟩, -⟩ := getElem?_steps hi
  obtain ⟨j, hj, hdecl⟩ := hsound i _ hentry
  obtain ⟨t, htable, -, hstep⟩ := hdecl.table h
  rw [hi] at hstep
  cases hstep
  exact ⟨j, hj, hdecl, rfl, htable⟩

theorem steps_toOne {R : Join → Prop} (hsound : D.Sound R) (h : D.Finds d joined)
    (hone : ∀ j, R j → ∀ t, d.table? j.table = some t →
      (D.clause j).ToOne m (root :: joined) t) :
    ∀ step ∈ D.steps joined, step.1.ToOne m (root :: joined) step.2 := by
  intro step hmem
  obtain ⟨i, hi⟩ := List.getElem?_of_mem hmem
  obtain ⟨j, hj, _, hclause, htable⟩ := hsound.step h hi
  rw [hclause]
  exact hone j hj step.2 htable

/-- The relations of a resolved path lead to one row each where the path does. -/
theorem toOne_of_resolved {r : Registry} {e : Entity} {paths : List AttributePath}
    {values : List Value} (hres : Resolved r e paths)
    (h : (empty.after paths values).Finds d joined) (hroot : d.table? e.table = some root)
    {path : AttributePath} (hpath : path ∈ paths) (hone : path.toOne m d e = true) :
    ∀ j ∈ path.joins, ∀ t, d.table? j.table = some t →
      ((empty.after paths values).clause j).ToOne m (root :: joined) t := by
  rw [AttributePath.toOne, hroot] at hone
  exact toOne_of_chained (hres.chained path hpath) (hres.declares values hpath) h rfl hone

/-! ## Preparation -/

theorem exists_finds {R : Join → Prop} (hsound : D.Sound R)
    (hR : ∀ j, R j → ∃ t, d.table? j.table = some t) : ∃ joined, D.Finds d joined := by
  refine Success.exists_map_some fun k hk => ?_
  obtain ⟨i, hi⟩ := List.getElem?_of_mem hk
  obtain ⟨j, hj, hdecl⟩ := hsound i k hi
  have hsame : k = (j.path, D.clause j) := Option.some.inj (hi.symm.trans hdecl.entry)
  rw [hsame]
  exact hR j hj

end Draft

namespace Statement

theorem checkRef_eq_ok {tables : List Table} {r : ColumnRef} :
    checkRef tables r = .ok () ↔
      ∃ t, tables[r.table]? = some t ∧ (t.slot? r.column).isSome = true := by
  unfold checkRef
  cases tables[r.table]? with
  | none => simp
  | some t => simp [Option.isSome_iff_ne_none]

theorem mem_joinRefs {r : ColumnRef} {n : Nat} {js : List JoinClause} (h : r ∈ joinRefs n js) :
    ∃ i j, js[i]? = some j ∧
      (r = { table := n + i, column := j.references } ∨
        r = { table := j.parent, column := j.column }) := by
  induction js generalizing n with
  | nil => cases h
  | cons first rest ih =>
    rw [joinRefs, List.mem_cons, List.mem_cons] at h
    rcases h with h | h | h
    · exact ⟨0, first, rfl, .inl h⟩
    · exact ⟨0, first, rfl, .inr h⟩
    · obtain ⟨i, j, hi, hr⟩ := ih h
      refine ⟨i + 1, j, hi, ?_⟩
      rw [Nat.add_right_comm, Nat.add_assoc] at hr
      exact hr

end Statement

namespace Draft

variable {m : Meaning} {d : Database} {D : Draft} {root : Table} {joined : List Table}

/-- What a chain of joins names is there when the database stores it. -/
theorem checked_of_chained {start goal : Option String} {js : List Join}
    (hc : Chained start js goal) (hdecl : ∀ j ∈ js, ∃ i, D.Declares i j)
    (h : D.Finds d joined) {source : Table} {column : String}
    (hsource : (root :: joined)[D.tableOf start]? = some source)
    (hstores : source.stores d column js = true) :
    (∀ j ∈ js,
      Statement.checkRef (root :: joined)
          { table := D.tableOf (some j.path), column := j.references } = .ok () ∧
        Statement.checkRef (root :: joined)
          { table := D.tableOf j.parent, column := j.column } = .ok ()) ∧
      Statement.checkRef (root :: joined) { table := D.tableOf goal, column } = .ok () := by
  simp only [Statement.checkRef_eq_ok]
  induction js generalizing start source with
  | nil =>
    have hgoal : start = goal := hc
    rw [← hgoal]
    refine ⟨?_, source, hsource, hstores⟩
    intro j hj
    cases hj
  | cons first rest ih =>
    obtain ⟨hparent, hc⟩ := hc
    obtain ⟨i, hfirst⟩ := hdecl first List.mem_cons_self
    obtain ⟨t, htable, hnumber, -⟩ := hfirst.table h
    simp only [Table.stores, htable, Bool.and_eq_true] at hstores
    obtain ⟨hcolumn, hreferences, hrest⟩ := hstores
    obtain ⟨hjoins, hgoal⟩ := ih hc (fun k hk => hdecl k (List.mem_cons_of_mem first hk))
      (hnumber root) hrest
    refine ⟨?_, hgoal⟩
    intro j hj
    rcases List.mem_cons.mp hj with rfl | hj
    · rw [← hparent] at hsource
      exact ⟨⟨t, hnumber root, hreferences⟩, source, hsource, hcolumn⟩
    · exact hjoins j hj

theorem checked_joinRefs {R : Join → Prop} (hsound : D.Sound R)
    (hR : ∀ j, R j →
      Statement.checkRef (root :: joined)
          { table := D.tableOf (some j.path), column := j.references } = .ok () ∧
        Statement.checkRef (root :: joined)
          { table := D.tableOf j.parent, column := j.column } = .ok ()) :
    ∀ r ∈ Statement.joinRefs 1 (D.joins.map Prod.snd),
      Statement.checkRef (root :: joined) r = .ok () := by
  intro r hr
  obtain ⟨i, clause, hi, hr⟩ := Statement.mem_joinRefs hr
  rw [List.getElem?_map] at hi
  obtain ⟨k, hk, rfl⟩ := Option.map_eq_some_iff.mp hi
  obtain ⟨j, hj, hdecl⟩ := hsound i k hk
  have hclause : k.2 = D.clause j :=
    congrArg Prod.snd (Option.some.inj (hk.symm.trans hdecl.entry))
  obtain ⟨hreferences, hcolumn⟩ := hR j hj
  rw [hclause] at hr
  rcases hr with rfl | rfl
  · rw [Nat.add_comm, ← hdecl.number]
    exact hreferences
  · exact hcolumn

end Draft
end Sql
end TableSearch
