/-
Products of left joins.

A join that finds at most one row gives every tuple exactly one successor, so joins of
that kind neither lose nor repeat tuples: `product_toOne`.  In the tuple that all joins
have made, the entry of a join is still the row that agrees with its parent's entry:
`Tuple.along_entry`.

The condition on the data speaks of the rows of the parent's table, and a tuple may hold
none of them, so each step needs that a tuple's rows lie in the tables they stand for:
`Tuple.Sits`.
-/
import TableSearch.Proofs.Database.Navigation

namespace TableSearch
namespace Sql

variable {m : Meaning} {tables : List Table}

/-! ## Partners -/

def Tuple.Sits (tables : List Table) (tuple : Tuple) : Prop :=
  ∀ (i : Nat) (row : Row), tuple[i]? = some (some row) →
    ∃ t : Table, tables[i]? = some t ∧ row ∈ t.rows

/-- A join finds at most one row for each row of its parent's table. -/
def JoinClause.ToOne (m : Meaning) (tables : List Table) (j : JoinClause) (t : Table) : Prop :=
  ∀ source, tables[j.parent]? = some source → source.refersToOne m j.column t j.references = true

theorem JoinClause.partners_eq (j : JoinClause) (tuple : Tuple) (t : Table) :
    j.partners m tables tuple t =
      t.agreeing m j.references
        (ColumnRef.operand tables tuple { table := j.parent, column := j.column }) := rfl

/-- A column of a tuple is a column of the place that the tuple has there. -/
theorem ColumnRef.operand_of_place {tuple : Tuple} {r : ColumnRef} {p : Place}
    (htable : tables[r.table]? = some p.table) (hrow : tuple[r.table]? = some p.row) :
    r.operand tables tuple = p.operand r.column := by
  cases hp : p.row with
  | none => simp [operand, cell, traits, Place.operand, htable, hrow, hp]
  | some row => simp [operand, cell, traits, Place.operand, htable, hrow, hp]

/-- More tables and more entries do not matter to a column of a tuple. -/
theorem ColumnRef.operand_append {tuple tuple' : Tuple} {r : ColumnRef} (more : List Table)
    (htuple : tuple <+: tuple') (hlt : r.table < tuple.length)
    (hlen : tuple.length ≤ tables.length) :
    r.operand (tables ++ more) tuple' = r.operand tables tuple := by
  have htable : (tables ++ more)[r.table]? = tables[r.table]? :=
    List.getElem?_append_left (Nat.lt_of_lt_of_le hlt hlen)
  have hentry : tuple'[r.table]? = tuple[r.table]? := by
    rw [List.prefix_iff_getElem?.mp htuple _ hlt, List.getElem?_eq_getElem hlt]
  simp only [operand, cell, traits, htable, hentry]

/-- Only the entry of the parent matters to a join. -/
theorem JoinClause.partners_congr {j : JoinClause} {tuple tuple' : Tuple} (t : Table)
    (h : tuple[j.parent]? = tuple'[j.parent]?) :
    j.partners m tables tuple t = j.partners m tables tuple' t := by
  rw [partners_eq, partners_eq, ColumnRef.operand, ColumnRef.operand, ColumnRef.cell,
    ColumnRef.cell, h]

theorem JoinClause.partners_eq_nil {j : JoinClause} {tuple : Tuple} (t : Table)
    (h : ∀ row, tuple[j.parent]? ≠ some (some row)) : j.partners m tables tuple t = [] := by
  rw [partners_eq]
  refine t.agreeing_null j.references ?_
  show ColumnRef.cell tables tuple _ = _
  unfold ColumnRef.cell
  split
  · next row _ hrow => exact absurd hrow (h row)
  · rfl

/-- More tables after those of a tuple do not matter to a join. -/
theorem JoinClause.partners_append {j : JoinClause} {tuple : Tuple} (more : List Table) (t : Table)
    (h : tuple.length ≤ tables.length) :
    j.partners m (tables ++ more) tuple t = j.partners m tables tuple t := by
  by_cases hp : j.parent < tuple.length
  · have htable : (tables ++ more)[j.parent]? = tables[j.parent]? :=
      List.getElem?_append_left (Nat.lt_of_lt_of_le hp h)
    simp only [partners_eq, ColumnRef.operand, ColumnRef.cell, ColumnRef.traits, htable]
  · have hnone : ∀ row, tuple[j.parent]? ≠ some (some row) := by
      intro row hrow
      exact hp (List.getElem?_eq_some_iff.mp hrow).1
    rw [partners_eq_nil t hnone, partners_eq_nil t hnone]

theorem JoinClause.ToOne.length_le {j : JoinClause} {t : Table} (hone : j.ToOne m tables t)
    {tuple : Tuple} (hsits : tuple.Sits tables) : (j.partners m tables tuple t).length ≤ 1 := by
  by_cases h : ∃ row, tuple[j.parent]? = some (some row)
  · obtain ⟨row, hrow⟩ := h
    obtain ⟨source, hsource, hmem⟩ := hsits _ _ hrow
    have hplace : ColumnRef.operand tables tuple { table := j.parent, column := j.column } =
        Place.operand ⟨source, some row⟩ j.column :=
      ColumnRef.operand_of_place (p := ⟨source, some row⟩) hsource hrow
    rw [partners_eq, hplace]
    exact Table.length_agreeing_le (hone source hsource) hmem
  · rw [partners_eq_nil t fun row hrow => h ⟨row, hrow⟩]
    exact Nat.zero_le 1

/-! ## Steps -/

def Tuple.grow (m : Meaning) (tables : List Table) (tuple : Tuple)
    (step : JoinClause × Table) : Tuple :=
  tuple ++ [(step.1.partners m tables tuple step.2).head?]

def Tuple.along (m : Meaning) (tables : List Table) (tuple : Tuple)
    (steps : List (JoinClause × Table)) : Tuple :=
  steps.foldl (Tuple.grow m tables) tuple

theorem Tuple.length_grow (tuple : Tuple) (step : JoinClause × Table) :
    (tuple.grow m tables step).length = tuple.length + 1 := by
  rw [grow, List.length_append, List.length_singleton]

/-- At most one row makes one tuple. -/
theorem Tuple.extend_of_length_le (tuple : Tuple) {rows : List Row} (h : rows.length ≤ 1) :
    tuple.extend rows = [tuple ++ [rows.head?]] := by
  match rows with
  | [] => rfl
  | [row] => rfl
  | _ :: _ :: _ => simp at h

theorem mem_extend {tuple tuple' : Tuple} {rows : List Row} (h : tuple' ∈ tuple.extend rows) :
    ∃ entry, tuple' = tuple ++ [entry] ∧ ∀ row, entry = some row → row ∈ rows := by
  cases rows with
  | nil =>
    refine ⟨none, by simpa [Tuple.extend] using h, ?_⟩
    intro row he
    cases he
  | cons first rest =>
    obtain ⟨row, hrow, rfl⟩ := List.mem_map.mp h
    refine ⟨some row, rfl, ?_⟩
    intro row' he
    rw [← Option.some.inj he]
    exact hrow

theorem Tuple.Sits.concat {tuple : Tuple} (hsits : tuple.Sits tables) {entry : Option Row}
    {t : Table} (ht : tables[tuple.length]? = some t)
    (hentry : ∀ row, entry = some row → row ∈ t.rows) :
    Tuple.Sits tables (tuple ++ [entry]) := by
  intro i row hi
  rcases Nat.lt_trichotomy i tuple.length with hlt | rfl | hgt
  · rw [List.getElem?_append_left hlt] at hi
    exact hsits i row hi
  · rw [List.getElem?_concat_length] at hi
    exact ⟨t, ht, hentry row (Option.some.inj hi)⟩
  · have hlen : (tuple ++ [entry]).length ≤ i := by
      rw [List.length_append, List.length_singleton]
      exact hgt
    rw [List.getElem?_eq_none hlen] at hi
    cases hi

theorem mem_partners {j : JoinClause} {tuple : Tuple} {t : Table} {row : Row}
    (h : row ∈ j.partners m tables tuple t) : row ∈ t.rows :=
  (List.mem_filter.mp h).1

/-- Tuples of one length whose rows lie in their tables. -/
def Fitting (tables : List Table) (n : Nat) (tuples : List Tuple) : Prop :=
  ∀ tuple ∈ tuples, tuple.length = n ∧ tuple.Sits tables

/-- A join keeps tuples fitting. -/
theorem Fitting.joinStep {n : Nat} {tuples : List Tuple} (h : Fitting tables n tuples)
    {step : JoinClause × Table} (hstep : tables[n]? = some step.2) :
    Fitting tables (n + 1) (Sql.joinStep m tables tuples step) := by
  intro tuple' hmem
  obtain ⟨tuple, htuple, hmem⟩ := List.mem_flatMap.mp hmem
  obtain ⟨hlen, hsits⟩ := h tuple htuple
  obtain ⟨entry, rfl, hentry⟩ := mem_extend hmem
  constructor
  · rw [List.length_append, List.length_singleton, hlen]
  · refine hsits.concat (t := step.2) ?_ fun row he => mem_partners (hentry row he)
    rw [hlen]
    exact hstep

def Aligned (tables : List Table) (n : Nat) (steps : List (JoinClause × Table)) : Prop :=
  ∀ i step, steps[i]? = some step → tables[n + i]? = some step.2

theorem Aligned.head {n : Nat} {step : JoinClause × Table} {rest : List (JoinClause × Table)}
    (h : Aligned tables n (step :: rest)) : tables[n]? = some step.2 :=
  h 0 step rfl

theorem Aligned.tail {n : Nat} {step : JoinClause × Table} {rest : List (JoinClause × Table)}
    (h : Aligned tables n (step :: rest)) : Aligned tables (n + 1) rest := by
  intro i next hi
  have hnext := h (i + 1) next hi
  rw [Nat.add_right_comm, Nat.add_assoc]
  exact hnext

theorem Aligned.left {n : Nat} {steps more : List (JoinClause × Table)}
    (h : Aligned tables n (steps ++ more)) : Aligned tables n steps := by
  intro i step hi
  have hlt : i < steps.length := (List.getElem?_eq_some_iff.mp hi).1
  exact h i step (by rw [List.getElem?_append_left hlt, hi])

theorem Aligned.right {n : Nat} {steps more : List (JoinClause × Table)}
    (h : Aligned tables n (steps ++ more)) : Aligned tables (n + steps.length) more := by
  intro i step hi
  have hmore := h (steps.length + i) step
    (by rw [List.getElem?_append_right (Nat.le_add_right _ _), Nat.add_sub_cancel_left, hi])
  rw [Nat.add_assoc]
  exact hmore

theorem Fitting.foldl_joinStep {n : Nat} {tuples : List Tuple} {steps : List (JoinClause × Table)}
    (h : Fitting tables n tuples) (hsteps : Aligned tables n steps) :
    Fitting tables (n + steps.length) (steps.foldl (Sql.joinStep m tables) tuples) := by
  induction steps generalizing n tuples with
  | nil => exact h
  | cons step rest ih =>
    have hrest := ih (h.joinStep (m := m) hsteps.head) hsteps.tail
    rw [Nat.add_right_comm] at hrest
    exact hrest

/-! ## Products -/

theorem joinStep_toOne {n : Nat} {tuples : List Tuple} (h : Fitting tables n tuples)
    {step : JoinClause × Table} (hone : step.1.ToOne m tables step.2) :
    joinStep m tables tuples step = tuples.map fun tuple => tuple.grow m tables step := by
  rw [joinStep, ← List.flatMap_pure_eq_map]
  refine List.flatMap_congr fun tuple htuple => ?_
  exact tuple.extend_of_length_le (hone.length_le (h tuple htuple).2)

/-- Joins to one row each neither lose nor repeat a tuple. -/
theorem foldl_joinStep_toOne {n : Nat} {tuples : List Tuple} {steps : List (JoinClause × Table)}
    (h : Fitting tables n tuples) (hsteps : Aligned tables n steps)
    (hone : ∀ step ∈ steps, step.1.ToOne m tables step.2) :
    steps.foldl (joinStep m tables) tuples =
      tuples.map fun tuple => tuple.along m tables steps := by
  induction steps generalizing n tuples with
  | nil => exact (List.map_id' tuples).symm
  | cons step rest ih =>
    have hfirst := joinStep_toOne h (hone step List.mem_cons_self)
    have hrest := ih (h.joinStep (m := m) hsteps.head) hsteps.tail
      fun s hs => hone s (List.mem_cons_of_mem step hs)
    rw [List.foldl_cons, hrest, hfirst, List.map_map]
    rfl

/-- Joins to tables that a tuple already has a place for do not see the tables after. -/
theorem foldl_joinStep_append {n : Nat} {tuples : List Tuple} {steps : List (JoinClause × Table)}
    (more : List Table) (hlen : n + steps.length ≤ tables.length + 1)
    (h : ∀ tuple ∈ tuples, tuple.length = n) :
    steps.foldl (joinStep m (tables ++ more)) tuples = steps.foldl (joinStep m tables) tuples := by
  induction steps generalizing n tuples with
  | nil => rfl
  | cons step rest ih =>
    rw [List.length_cons] at hlen
    have hfirst : joinStep m (tables ++ more) tuples step = joinStep m tables tuples step := by
      refine List.flatMap_congr fun tuple htuple => ?_
      have hle : tuple.length ≤ tables.length := by
        rw [h tuple htuple]
        omega
      rw [JoinClause.partners_append more step.2 hle]
    have hgrown : ∀ tuple ∈ joinStep m tables tuples step, tuple.length = n + 1 := by
      intro tuple' hmem
      obtain ⟨tuple, htuple, hmem⟩ := List.mem_flatMap.mp hmem
      obtain ⟨entry, rfl, _⟩ := mem_extend hmem
      rw [List.length_append, List.length_singleton, h tuple htuple]
    rw [List.foldl_cons, List.foldl_cons, hfirst]
    exact ih (by omega) hgrown

/-- Joins to one row each do not change how many tuples there are after other joins, and
what those joins made is still there. -/
theorem foldl_joinStep_more {n : Nat} {tuples : List Tuple}
    {steps extra : List (JoinClause × Table)}
    (more : List Table) (h : Fitting (tables ++ more) n tuples)
    (hsteps : Aligned (tables ++ more) n (steps ++ extra))
    (hlen : n + steps.length ≤ tables.length + 1)
    (hone : ∀ step ∈ extra, step.1.ToOne m (tables ++ more) step.2) :
    (steps ++ extra).foldl (joinStep m (tables ++ more)) tuples =
      (steps.foldl (joinStep m tables) tuples).map fun tuple =>
        tuple.along m (tables ++ more) extra := by
  have hbefore := foldl_joinStep_append (m := m) more hlen fun tuple htuple => (h tuple htuple).1
  have hfitting := h.foldl_joinStep (m := m) hsteps.left
  rw [hbefore] at hfitting
  rw [List.foldl_append, hbefore, foldl_joinStep_toOne hfitting hsteps.right hone]

/-! ## Tuples along joins -/

theorem Tuple.prefix_along (tuple : Tuple) (steps : List (JoinClause × Table)) :
    tuple <+: tuple.along m tables steps := by
  induction steps generalizing tuple with
  | nil => exact List.prefix_rfl
  | cons step rest ih => exact (List.prefix_append _ _).trans (ih (tuple.grow m tables step))

/-- The entry of a join is the row that it finds in the whole tuple. -/
theorem Tuple.along_entry (tables : List Table) (tuple : Tuple)
    {steps : List (JoinClause × Table)} {i : Nat} {step : JoinClause × Table}
    (hi : steps[i]? = some step)
    (hparent : step.1.parent < tuple.length + i) :
    (tuple.along m tables steps)[tuple.length + i]? =
      some (step.1.partners m tables (tuple.along m tables steps) step.2).head? := by
  induction steps generalizing tuple i with
  | nil => cases hi
  | cons first rest ih =>
    cases i with
    | zero =>
      cases hi
      have hgrown : tuple.grow m tables step <+: tuple.along m tables (step :: rest) :=
        (tuple.grow m tables step).prefix_along rest
      have hlast : tuple.length < (tuple.grow m tables step).length := by
        rw [length_grow]
        exact Nat.lt_succ_self _
      have hkept : tuple[step.1.parent]? =
          (tuple.along m tables (step :: rest))[step.1.parent]? := by
        rw [List.getElem?_eq_getElem hparent]
        exact (List.prefix_iff_getElem?.mp (tuple.prefix_along _) _ hparent).symm
      rw [← JoinClause.partners_congr step.2 hkept, Nat.add_zero,
        List.prefix_iff_getElem?.mp hgrown _ hlast, ← List.getElem?_eq_getElem hlast, grow,
        List.getElem?_concat_length]
    | succ i =>
      have hrest := ih (tuple.grow m tables first) hi (by rw [length_grow]; omega)
      rw [length_grow, Nat.add_right_comm, Nat.add_assoc] at hrest
      exact hrest

end Sql
end TableSearch
