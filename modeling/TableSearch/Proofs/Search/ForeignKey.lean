/-
Searches for a reference and for what it refers to.

A path that ends on a relation tests the column of the reference, without a join for the relation.
The path that goes on to the column which is referenced tests that column, behind one join more.
Where every reference is the value of the one row it agrees with, and both columns compare alike,
the two searches select the same rows: `reference_read_directly`.
-/
import TableSearch.Proofs.Database.Alike
import TableSearch.Proofs.Schema.Reference
import TableSearch.Proofs.Search.Binding
import TableSearch.Proofs.Search.Membership
import TableSearch.Proofs.Sql.Nesting
import TableSearch.Proofs.Sql.Sharing

namespace TableSearch

/-! ## Conditions on the data -/

/-- Every reference in a column agrees with one row of another table, and is the value there. -/
def Table.refersExactly (m : Meaning) (source : Table) (column : String) (t : Table)
    (references : String) : Bool :=
  source.rows.all fun row =>
    (source.cell column row).isNull ||
      match t.agreeing m references (Place.operand ⟨source, some row⟩ column) with
      | [partner] => decide (t.cell references partner = source.cell column row)
      | _ => false

/-- The references of an entity's table are values in the table of another one, where a backend
compares them as it does in their own column. -/
def Database.Refers (m : Meaning) (d : Database) (e t : Entity) (column references : String) :
    Prop :=
  ∀ source table, d.table? e.table = some source → d.table? t.table = some table →
    source.refersExactly m column table references = true ∧
      ∀ cell, (cell = .null ∨ ∃ row ∈ source.rows, source.cell column row = cell) →
        m.Alike (source.traits column) (table.traits references) cell

variable {m : Meaning} {d : Database}

/-- The embedded engine compares references alike in columns of one affinity and one collation, if
both hold row numbers or neither does, or the references are whole numbers but the smallest. -/
theorem Database.refers_sqlite {e t : Entity} {column references : String}
    (h : ∀ source table, d.table? e.table = some source → d.table? t.table = some table →
      source.refersExactly Meaning.sqlite column table references = true ∧
      (source.traits column).affinity = (table.traits references).affinity ∧
      (source.traits column).collation = (table.traits references).collation ∧
      ((source.traits column).isRowNumber = (table.traits references).isRowNumber ∨
        (source.traits column).affinity.isNumeric = true ∧
          ∀ row ∈ source.rows, source.cell column row = .null ∨
            ∃ n : Int64, source.cell column row = .integer n ∧ -(2 ^ 63) < n.toInt)) :
    d.Refers Meaning.sqlite e t column references := by
  intro source table hsource htable
  obtain ⟨hexactly, haffinity, hcollation, hnumber⟩ := h source table hsource htable
  refine ⟨hexactly, ?_⟩
  rintro cell (rfl | ⟨row, hrow, rfl⟩)
  · exact Meaning.alike_null
  · rcases hnumber with hsame | ⟨hnumeric, hwhole⟩
    · exact Meaning.alike_sqlite haffinity hcollation (.inl hsame)
    · rcases hwhole row hrow with hnull | hwhole
      · rw [hnull]
        exact Meaning.alike_null
      · exact Meaning.alike_sqlite haffinity hcollation (.inr ⟨hnumeric, hwhole⟩)

namespace Table

variable {source t : Table} {column references : String} {row : Row}

theorem cell_isNull_iff {c : Cell} : c.isNull = true ↔ c = .null := by
  cases c <;> simp [Cell.isNull]

/-- What a row refers to: nothing, or the one row with the same value. -/
theorem agreeing_of_exactly (h : source.refersExactly m column t references = true)
    (hrow : row ∈ source.rows) :
    (source.cell column row = .null ∧
        t.agreeing m references (Place.operand ⟨source, some row⟩ column) = []) ∨
      ∃ partner, t.agreeing m references (Place.operand ⟨source, some row⟩ column) = [partner] ∧
        t.cell references partner = source.cell column row := by
  have hone := List.all_eq_true.mp h row hrow
  rcases (Bool.or_eq_true _ _).mp hone with hnull | hone
  · have hcell := cell_isNull_iff.mp hnull
    exact .inl ⟨hcell, agreeing_null t references hcell⟩
  · split at hone
    · next partner hpartner => exact .inr ⟨partner, hpartner, of_decide_eq_true hone⟩
    · cases hone

theorem refersToOne_of_exactly (h : source.refersExactly m column t references = true) :
    source.refersToOne m column t references = true := by
  refine List.all_eq_true.mpr fun row hrow => decide_eq_true ?_
  rcases agreeing_of_exactly h hrow with ⟨_, hnone⟩ | ⟨partner, hone, _⟩
  · rw [hnone]
    exact Nat.zero_le _
  · rw [hone]
    exact Nat.le_refl _

/-- One join more leads to one row at most, if it does so from the table before it. -/
theorem toOne_concat {js : List Join} {j : Join} (h : toOne m d source js = true)
    (hlast : ∀ q, Place.along m d ⟨source, none⟩ js = some q → ∀ t, d.table? j.table = some t →
      q.table.refersToOne m j.column t j.references = true) :
    toOne m d source (js ++ [j]) = true := by
  induction js generalizing source with
  | nil =>
    rw [List.nil_append, toOne]
    split
    · next t ht =>
      rw [hlast _ rfl t ht]
      rfl
    · rfl
  | cons first rest ih =>
    rw [List.cons_append, toOne]
    rw [toOne] at h
    cases ht : d.table? first.table with
    | none => rfl
    | some t =>
      rw [ht] at h
      obtain ⟨hfirst, hrest⟩ := (Bool.and_eq_true _ _).mp h
      refine (Bool.and_eq_true _ _).mpr ⟨hfirst, ih hrest fun q hq => hlast q ?_⟩
      rw [Place.along, ht]
      exact hq

/-- What a longer chain of joins asks of a database is asked of it by the shorter one. -/
theorem stores_of_concat {js : List Join} {j : Join}
    (h : stores d source references (js ++ [j]) = true) : stores d source j.column js = true := by
  induction js generalizing source with
  | nil => exact ((Bool.and_eq_true _ _).mp h).1
  | cons first rest ih =>
    rw [List.cons_append, stores, Bool.and_eq_true] at h
    rw [stores, h.1, Bool.true_and]
    cases ht : d.table? first.table with
    | none =>
      rw [ht] at h
      cases h.2
    | some t =>
      rw [ht] at h
      obtain ⟨hfirst, hrest⟩ := (Bool.and_eq_true _ _).mp h.2
      exact (Bool.and_eq_true _ _).mpr ⟨hfirst, ih hrest⟩

end Table

/-! ## Both ways of reading -/

namespace Place

variable {p q : Place} {column references : String} {t : Table}

/-- A row that joins lead to is one of its table. -/
theorem mem_rows_of_along {js : List Join} (hrow : ∀ row, p.row = some row → row ∈ p.table.rows)
    (h : p.along m d js = some q) : ∀ row, q.row = some row → row ∈ q.table.rows := by
  induction js generalizing p with
  | nil =>
    cases h
    exact hrow
  | cons j rest ih =>
    obtain ⟨t, _, h⟩ := Option.bind_eq_some_iff.mp h
    refine ih (fun row hrow => ?_) h
    rw [follow_row] at hrow
    exact (List.mem_filter.mp (List.mem_of_mem_head? hrow)).1

/-- The value that is referenced is the reference. -/
theorem cell_follow (h : p.table.refersExactly m column t references = true)
    (hrow : ∀ row, p.row = some row → row ∈ p.table.rows) :
    ((p.follow m column t references).operand references).cell = (p.operand column).cell := by
  obtain ⟨table, row⟩ := p
  cases row with
  | none => rfl
  | some row =>
    have hfollow := follow_row m ⟨table, some row⟩ column t references
    have htable : (follow m ⟨table, some row⟩ column t references).table = t := rfl
    rcases Table.agreeing_of_exactly h (hrow row rfl) with ⟨hnull, hnone⟩ | ⟨partner, hone, hcell⟩
    · rw [hnone] at hfollow
      simp only [operand, hfollow, List.head?_nil, hnull]
    · rw [hone] at hfollow
      simp only [operand, hfollow, htable, List.head?_cons, hcell]

theorem along_concat (p : Place) (js : List Join) (j : Join) :
    p.along m d (js ++ [j]) = (p.along m d js).bind fun q =>
      (d.table? j.table).map fun t => q.follow m j.column t j.references := by
  induction js generalizing p with
  | nil =>
    simp only [List.nil_append, along]
    cases d.table? j.table <;> rfl
  | cons first rest ih =>
    rw [List.cons_append, along, along]
    cases d.table? first.table with
    | none => rfl
    | some t => exact ih _

end Place

/-- A filter cannot tell operands apart that hold the same cell and compare alike. -/
theorem Filter.accepts_congr {f g : Filter} {x y : Operand} {type : ColumnType}
    (hoperator : f.operator = g.operator) (hvalue : f.value = g.value) (hcell : x.cell = y.cell)
    (halike : m.Alike x.traits y.traits x.cell) : f.accepts m x type = g.accepts m y type := by
  have hcompare : ∀ op v, (m.compare op x v == .yes) = (m.compare op y v == .yes) := by
    intro op v
    rw [Bool.eq_iff_iff, beq_iff_eq, beq_iff_eq]
    have h := halike op v
    have hy : (⟨x.cell, y.traits⟩ : Operand) = y := by
      rw [hcell]
    rw [hy] at h
    exact h
  unfold Filter.accepts
  rw [hoperator, hvalue, hcell]
  simp only [hcompare]

open AttributePath (Follows EndsOn)

variable {r : Registry} {name : String} {root e t : Entity} {path last column references : String}
  {type : ColumnType} {operator : Operator} {value : Value} {direct joined : AttributePath}
  {j : Join}

/-- A row passes the test of a reference when it passes that of the column referenced. -/
theorem SearchParams.holdsAt_follows (hblank : Text.isBlank path = false)
    (hdirect : AttributePath.resolve r root path = .ok direct)
    (hjoined : AttributePath.resolve r root (path ++ "." ++ last) = .ok joined)
    (hfollows : Follows direct joined t column references j)
    (htable : ∀ p q, d.table? root.table = some p.table →
      Place.along m d p direct.joins = some q → d.table? e.table = some q.table)
    (hrefers : d.Refers m e t column references) {table : Table}
    (hfound : d.table? t.table = some table) {place : Place}
    (hplace : d.table? root.table = some place.table)
    (hrow : ∀ row, place.row = some row → row ∈ place.table.rows) :
    (single operator path value).holdsAt m d r root place =
      (single operator (path ++ "." ++ last) value).holdsAt m d r root place := by
  rw [holdsAt_single hblank, holdsAt_single (AttributePath.isBlank_concat path last),
    Filter.holdsAt, Filter.holdsAt, Filter.segments, Filter.segments,
    Place.read_of_walk (AttributePath.walk_of_resolve hdirect),
    Place.read_of_walk (AttributePath.walk_of_resolve hjoined), hfollows.joins,
    Place.along_concat, hfollows.table, hfound]
  cases hq : place.along m d direct.joins with
  | none => rfl
  | some q =>
    have hrows := Place.mem_rows_of_along hrow hq
    obtain ⟨hexactly, halike⟩ := hrefers q.table table (htable place q hplace hq) hfound
    show Filter.accepts m ⟨path, operator, value⟩ (q.operand direct.column) direct.type =
      Filter.accepts m ⟨path ++ "." ++ last, operator, value⟩
        ((q.follow m j.column table j.references).operand joined.column) joined.type
    rw [hfollows.held.1, hfollows.held.2, hfollows.referenced.1, hfollows.referenced.2,
      hfollows.type]
    refine Filter.accepts_congr rfl rfl (Place.cell_follow hexactly hrows).symm (halike _ ?_)
    cases hsome : q.row with
    | none => exact .inl (by simp [Place.operand, hsome])
    | some row => exact .inr ⟨row, hrows row hsome, by simp [Place.operand, hsome]⟩

/-- One relation more leads to one row at most. -/
theorem AttributePath.toOne_follows (hfollows : Follows direct joined t column references j)
    (htable : ∀ p q, d.table? root.table = some p.table →
      Place.along m d p direct.joins = some q → d.table? e.table = some q.table)
    (hrefers : d.Refers m e t column references) (h : direct.toOne m d root = true) :
    joined.toOne m d root = true := by
  unfold AttributePath.toOne at h ⊢
  cases hroot : d.table? root.table with
  | none => rfl
  | some source =>
    rw [hroot] at h
    show source.toOne m d joined.joins = true
    rw [hfollows.joins]
    refine Table.toOne_concat h fun q hq table hfound => ?_
    rw [hfollows.table] at hfound
    rw [hfollows.held.2, hfollows.referenced.2]
    exact Table.refersToOne_of_exactly
      (hrefers q.table table (htable ⟨source, none⟩ q hroot hq) hfound).1

/-! ## Both statements -/

namespace Predicate

variable {a : AttributePath} {p : Predicate}

/-- The conditions of one test lie as deep for every column of the type. -/
theorem Leaf.depth_condition (h : Leaf a operator value p) (d : Sql.Draft) :
    (d.condition p).1.depth = if operator = .like ∧ a.type ≠ .text then 3 else 2 := by
  cases h with
  | like =>
    show (if (a.type != .text) = true then 3 else 2) = _
    simp
  | @isIn items => cases items <;> rfl
  | _ => rfl

/-- A test binds the same values in every column. -/
theorem Leaf.values_congr {b : AttributePath} {q : Predicate} (h : Leaf a operator value p)
    (h' : Leaf b operator value q) : p.values = q.values := by
  rw [h.values_eq "", h'.values_eq ""]

theorem Leaf.ne_matchAll (h : Leaf a operator value p) : p ≠ .matchAll := by
  cases h <;> simp [matchAll]

structure TestsBoth (direct joined : AttributePath) (t : Entity) (column references : String)
    (j : Join) (operator : Operator) (value : Value) (p q : Predicate) : Prop where
  follows : Follows direct joined t column references j
  held : ofOperator direct operator value = .ok p
  referenced : ofOperator joined operator value = .ok q

/-- One column takes what the other one takes. -/
theorem testsBoth_or_refused (hfollows : Follows direct joined t column references j)
    (operator : Operator) (value : Value) :
    (ofOperator direct operator value = .error (operator.refusal direct value) ∧
      ofOperator joined operator value = .error (operator.refusal joined value)) ∨
    ∃ p q, TestsBoth direct joined t column references j operator value p q := by
  cases hheld : ofOperator direct operator value with
  | error err =>
    obtain ⟨hrefused, rfl⟩ := ofOperator_eq_error.mp hheld
    rw [← hfollows.type] at hrefused
    exact .inl ⟨rfl, ofOperator_eq_error.mpr ⟨hrefused, rfl⟩⟩
  | ok p =>
    have htakes := (ofOperator_eq_ok.mp hheld).1
    rw [← hfollows.type] at htakes
    cases hreferenced : ofOperator joined operator value with
    | error err => exact absurd htakes (ofOperator_eq_error.mp hreferenced).1
    | ok q => exact .inr ⟨p, q, hfollows, hheld, hreferenced⟩

namespace TestsBoth

variable {q : Predicate} (h : TestsBoth direct joined t column references j operator value p q)
include h

theorem leaf : Leaf direct operator value p ∧ Leaf joined operator value q :=
  ⟨(ofOperator_eq_ok.mp h.held).2, (ofOperator_eq_ok.mp h.referenced).2⟩

theorem paths : p.paths = [direct] ∧ q.paths = [joined] :=
  ⟨paths_ofOperator h.held, paths_ofOperator h.referenced⟩

theorem values : p.values = q.values :=
  h.leaf.1.values_congr h.leaf.2

end TestsBoth

end Predicate

open Predicate (TestsBoth)

namespace Sql
namespace Statement

variable {p q : Predicate} {a : AttributePath}

/-- A smaller statement is within the limits of a larger one. -/
theorem checkLimits_of_le {l : Limits} {s s' : Statement}
    (hjoins : s.joins.length ≤ s'.joins.length) (hparams : s.params = s'.params)
    (hdepth : s.condition.map Condition.depth = s'.condition.map Condition.depth)
    (h : s'.checkLimits l = .ok ()) : s.checkLimits l = .ok () := by
  have hdeep : ∀ c : Option Condition, (c.any fun c => decide (l.depth < c.depth)) =
      (c.map Condition.depth).any fun n => decide (l.depth < n) := by
    intro c
    cases c <;> rfl
  unfold checkLimits at h ⊢
  rw [hparams, hdeep, hdepth, ← hdeep]
  split at h
  · cases h
  · rw [if_neg (by omega)]
    exact h

theorem select_joins_of_paths (table : String) (w : Option Window) (h : p.paths = [a]) :
    (select table p [] w).joins = (a.joins.foldl Draft.addJoin Draft.empty).joins.map Prod.snd := by
  rw [select_joins, draft, h]
  simp [Draft.after]

/-- The join over the relation comes after the joins before it. -/
theorem select_joins_concat (h : TestsBoth direct joined t column references j operator value p q)
    (table : String) (w : Option Window) :
    ∃ clause : JoinClause, (select table q [] w).joins = (select table p [] w).joins ++ [clause] ∧
      clause.table = t.table ∧ clause.references = references ∧ clause.column = column := by
  have hunknown : ¬ (direct.joins.foldl Draft.addJoin Draft.empty).Knows (some j.path) := by
    rw [Draft.knows_foldl_addJoin_iff]
    rintro (⟨k, hk, _⟩ | ⟨k, hk, hpath⟩)
    · cases hk
    · exact h.follows.fresh k hk hpath
  have hnew : ¬ ((direct.joins.foldl Draft.addJoin Draft.empty).joins.any
      fun k => k.1 == j.path) = true := by
    intro hany
    obtain ⟨k, hk, hpath⟩ := List.any_eq_true.mp hany
    exact hunknown ⟨k, hk, by simpa using hpath⟩
  refine ⟨(direct.joins.foldl Draft.addJoin Draft.empty).clause j, ?_, h.follows.table,
    h.follows.referenced.2, h.follows.held.2⟩
  rw [select_joins_of_paths table w h.paths.1, select_joins_of_paths table w h.paths.2,
    h.follows.joins, List.foldl_append, List.foldl_cons, List.foldl_nil, Draft.addJoin, if_neg hnew,
    List.map_append]
  rfl

end Statement
end Sql

namespace Plan

open Repository (run)

variable {p q : Predicate}

theorem select_values (root : Entity) (p : Predicate) :
    ((Plan.mk root p []).select none).params = p.values := by
  rw [select, Sql.Statement.select_params]
  exact List.append_nil _

/-- A database that serves the search behind the join serves the one without it. -/
theorem served_of_testsBoth
    (hboth : TestsBoth direct joined t column references j operator value p q)
    (h : (Plan.mk root q []).Served m d) : (Plan.mk root p []).Served m d := by
  have hparams : ((Plan.mk root p []).select none).params =
      ((Plan.mk root q []).select none).params := by
    rw [select_values, select_values, hboth.values]
  obtain ⟨clause, hjoins, _⟩ := Sql.Statement.select_joins_concat hboth root.table none
  refine ⟨h.root, fun used hused => ?_, ?_, ?_⟩
  · rw [hboth.paths.1, List.mem_singleton] at hused
    have hstored := h.stored joined (by rw [hboth.paths.2]; exact List.mem_singleton_self _)
    rw [hused]
    unfold AttributePath.stored at hstored ⊢
    cases hroot : d.table? root.table with
    | none =>
      rw [hroot] at hstored
      cases hstored
    | some source =>
      rw [hroot] at hstored
      show source.stores d direct.column direct.joins = true
      rw [hboth.follows.held.1, ← hboth.follows.held.2]
      rw [hboth.follows.joins] at hstored
      exact Table.stores_of_concat hstored
  · refine Sql.Statement.checkLimits_of_le ?_ hparams ?_ h.limits
    · show ((Sql.Statement.select root.table p [] none).joins).length ≤
        ((Sql.Statement.select root.table q [] none).joins).length
      rw [hjoins, List.length_append]
      omega
    · obtain ⟨hleaf, hleaf'⟩ := hboth.leaf
      show (Sql.Draft.empty.optionalCondition p).1.map _ =
        (Sql.Draft.empty.optionalCondition q).1.map _
      rw [Sql.Statement.optionalCondition_eq hleaf.ne_matchAll,
        Sql.Statement.optionalCondition_eq hleaf'.ne_matchAll, Option.map_some, Option.map_some,
        hleaf.depth_condition, hleaf'.depth_condition, hboth.follows.type]
  · rw [hparams]
    exact h.patterns

theorem make_single_error {a : AttributePath} {err : QueryError} (hroot : r.get name = .ok root)
    (hblank : Text.isBlank path = false) (ha : AttributePath.resolve r root path = .ok a)
    (h : Predicate.ofOperator a operator value = .error err) :
    make r name (.single operator path value) .unsorted = .error err := by
  have hpredicate : predicateOf r root (.single operator path value) = .error err := by
    show (Filter.parseAll [(Filter.key operator path, value)] >>= _) = _
    rw [Filter.parseAll, List.mapM_cons, Filter.parse_key hblank]
    show (do let parts ← [_].mapM (Predicate.ofFilter r root); return Predicate.all parts) = _
    rw [List.mapM_cons, Predicate.ofFilter]
    dsimp only
    rw [ha]
    show (Predicate.ofOperator a operator value >>= _) >>= _ = _
    rw [h]
    rfl
  unfold make
  rw [hroot]
  show predicateOf r root (.single operator path value) >>= _ = _
  rw [hpredicate]
  rfl

/-- A database where the joins before a reference lead to one row at most, and where the reference
is a value of the other table. -/
structure Agrees (m : Meaning) (d : Database) (root e t : Entity) (column references : String)
    (direct : AttributePath) : Prop where
  toOne : direct.toOne m d root = true
  place : ∀ p q, d.table? root.table = some p.table →
    Place.along m d p direct.joins = some q → d.table? e.table = some q.table
  refers : d.Refers m e t column references

/-- A statement with a join for the relation has joined the table that is referenced. -/
theorem exists_referenced
    (hboth : TestsBoth direct joined t column references j operator value p q) {source : Table}
    {tables : List Table}
    (h : ((Plan.mk root q []).select none).tables m d = .ok (source, tables)) :
    ∃ table, d.table? t.table = some table := by
  obtain ⟨_, _, hfinds, _⟩ := Sql.Statement.tables_eq_ok.mp h
  obtain ⟨clause, hjoins, hclause, _⟩ := Sql.Statement.select_joins_concat hboth root.table none
  have hmem : d.table? clause.table ∈ tables.map some := by
    rw [← hfinds]
    show _ ∈ (Sql.Statement.select root.table q [] none).joins.map _
    rw [hjoins, List.map_append]
    exact List.mem_append_right _ (List.mem_singleton_self _)
  obtain ⟨table, _, hfound⟩ := List.mem_map.mp hmem
  exact ⟨table, by rw [← hclause, ← hfound]⟩

section

variable (hroot : r.get name = .ok root) (hblank : Text.isBlank path = false)
  (hdirect : AttributePath.resolve r root path = .ok direct)
  (hjoined : AttributePath.resolve r root (path ++ "." ++ last) = .ok joined)
  (hboth : TestsBoth direct joined t column references j operator value p q)
include hroot hblank hdirect hjoined hboth

theorem make_testsBoth :
    make r name (.single operator path value) .unsorted = .ok ⟨root, p, []⟩ ∧
      make r name (.single operator (path ++ "." ++ last) value) .unsorted = .ok ⟨root, q, []⟩ :=
  ⟨make_single.mpr ⟨root, direct, p, hroot, hblank, hdirect, hboth.held, rfl⟩,
    make_single.mpr ⟨root, joined, q, hroot, AttributePath.isBlank_concat path last, hjoined,
      hboth.referenced, rfl⟩⟩

/-- Whatever the two statements answer, it is the same. -/
theorem rows_testsBoth (hagrees : Agrees m d root e t column references direct)
    {answer answer' : List Column × List (List Cell)}
    (h : ((Plan.mk root p []).select none).rows m d = .ok answer)
    (h' : ((Plan.mk root q []).select none).rows m d = .ok answer') : answer = answer' := by
  obtain ⟨hplan, hplan'⟩ := make_testsBoth hroot hblank hdirect hjoined hboth
  have hone : ∀ used ∈ p.paths, used.toOne m d root = true := by
    rw [hboth.paths.1]
    exact List.forall_mem_singleton.mpr hagrees.toOne
  have hone' : ∀ used ∈ q.paths, used.toOne m d root = true := by
    rw [hboth.paths.2]
    exact List.forall_mem_singleton.mpr
      (AttributePath.toOne_follows hboth.follows hagrees.place hagrees.refers hagrees.toOne)
  obtain ⟨source, tables, htables, rfl⟩ := rows_single hplan hone h
  obtain ⟨source', tables', htables', rfl⟩ := rows_single hplan' hone' h'
  have hsource := (Sql.Statement.tables_eq_ok.mp htables).2.1
  have hsource' := (Sql.Statement.tables_eq_ok.mp htables').2.1
  have hsame : source = source' := Option.some.inj (hsource.symm.trans hsource')
  obtain ⟨table, hfound⟩ := exists_referenced hboth htables'
  rw [← hsame]
  refine congrArg (Prod.mk source.columns) (congrArg _ (List.filter_congr fun row hrow => ?_))
  refine SearchParams.holdsAt_follows hblank hdirect hjoined hboth.follows hagrees.place
    hagrees.refers hfound hsource fun row' h' => ?_
  cases h'
  exact hrow

/-- Where the longer statement is served, both are answered, unless a list is equated. -/
theorem run_testsBoth (hagrees : Agrees m d root e t column references direct)
    (hserved : (Plan.mk root q []).Served m d)
    (hsingle : ¬ Filter.EquatesList ⟨path, operator, value⟩) :
    ∃ answer,
      run (.serving m d) ((Plan.mk root p []).select none) Sql.Statement.rows = .ok answer ∧
      run (.serving m d) ((Plan.mk root q []).select none) Sql.Statement.rows = .ok answer := by
  obtain ⟨hplan, hplan'⟩ := make_testsBoth hroot hblank hdirect hjoined hboth
  have hheld := served_of_testsBoth hboth hserved
  have hlist : operator = .eq ∨ operator = .notEq → value.isList = false := fun hop =>
    Bool.eq_false_iff.mpr fun hvalue => hsingle ⟨hop, Value.isList_iff.mp hvalue⟩
  obtain ⟨_, _, htables⟩ := exists_tables hplan hheld
  obtain ⟨_, _, htables'⟩ := exists_tables hplan' hserved
  obtain ⟨answer, hanswer⟩ := Sql.Statement.exists_rows htables hheld.patterns
  obtain ⟨answer', hanswer'⟩ := Sql.Statement.exists_rows htables' hserved.patterns
  have hsame := rows_testsBoth hroot hblank hdirect hjoined hboth hagrees hanswer hanswer'
  exact ⟨answer,
    Repository.run_serving_eq_ok.mpr
      ⟨params_of_values (Predicate.values_ofOperator hboth.held hlist), hanswer⟩,
    Repository.run_serving_eq_ok.mpr
      ⟨params_of_values (Predicate.values_ofOperator hboth.referenced hlist), hsame ▸ hanswer'⟩⟩

end

/-- Reading a reference agrees with joining for it.  The test of a reference and the test of the
column that it refers to are both refused, for the same reason and each with its own path, or both
have a plan, the second with one join more.  On a database where the references are values in the
other table that compare there as they do in their own column, and the relations before lead to one
row at most, both searches select the same rows; and one that serves the second answers both, unless
a list is equated. -/
theorem reference_read_directly (hroot : r.get name = .ok root)
    (hends : EndsOn r root path e t column references type)
    (hblank : Text.isBlank last = false) (hdot : '.' ∉ last.toList)
    (hlast : t.attribute? last = some (.column references type))
    (operator : Operator) (value : Value) :
    (∃ direct joined : AttributePath, direct.path = path ∧ joined.path = path ++ "." ++ last ∧
      direct.type = joined.type ∧
      make r name (.single operator path value) .unsorted =
        .error (operator.refusal direct value) ∧
      make r name (.single operator (path ++ "." ++ last) value) .unsorted =
        .error (operator.refusal joined value)) ∨
    ∃ plan plan', make r name (.single operator path value) .unsorted = .ok plan ∧
      make r name (.single operator (path ++ "." ++ last) value) .unsorted = .ok plan' ∧
      (∀ w, ∃ clause : Sql.JoinClause,
        (plan'.select w).joins = (plan.select w).joins ++ [clause] ∧
          clause.table = t.table ∧ clause.references = references ∧ clause.column = column) ∧
      ∀ (m : Meaning) (d : Database), d.Refers m e t column references →
        (∀ used ∈ plan.predicate.paths, used.toOne m d root = true) →
        (∀ answer answer', run (.serving m d) (plan.select none) Sql.Statement.rows = .ok answer →
          run (.serving m d) (plan'.select none) Sql.Statement.rows = .ok answer' →
            answer = answer') ∧
        (plan'.Served m d → ¬ Filter.EquatesList ⟨path, operator, value⟩ →
          ∃ answer, run (.serving m d) (plan.select none) Sql.Statement.rows = .ok answer ∧
            run (.serving m d) (plan'.select none) Sql.Statement.rows = .ok answer) := by
  have hnotblank := hends.not_blank
  obtain ⟨direct, joined, j, hdirect, hjoined, hfollows, hplace⟩ :=
    hends.exists_resolve hblank hdot hlast
  rcases Predicate.testsBoth_or_refused hfollows operator value with
    ⟨hrefused, hrefused'⟩ | ⟨p, q, hboth⟩
  · exact .inl ⟨direct, joined, AttributePath.path_of_resolve hdirect,
      AttributePath.path_of_resolve hjoined, hfollows.type.symm,
      make_single_error hroot hnotblank hdirect hrefused,
      make_single_error hroot (AttributePath.isBlank_concat path last) hjoined hrefused'⟩
  · obtain ⟨hplan, hplan'⟩ := make_testsBoth hroot hnotblank hdirect hjoined hboth
    refine .inr ⟨_, _, hplan, hplan', fun w => Sql.Statement.select_joins_concat hboth root.table w,
      fun m d hrefers hone => ?_⟩
    have hagrees : Agrees m d root e t column references direct :=
      ⟨hone direct (by rw [hboth.paths.1]; exact List.mem_singleton_self _), hplace m d, hrefers⟩
    refine ⟨fun answer answer' h h' => ?_, fun hserved hsingle => ?_⟩
    · exact rows_testsBoth hroot hnotblank hdirect hjoined hboth hagrees
        (Repository.run_serving_eq_ok.mp h).2 (Repository.run_serving_eq_ok.mp h').2
    · exact run_testsBoth hroot hnotblank hdirect hjoined hboth hagrees hserved hsingle

theorem people_manager : ∃ person, people.get "people" = .ok person ∧ person.table = "people" ∧
    EndsOn people person "manager" person person "manager_id" "id" .integer ∧
    person.attribute? "id" = some (.column "id" .integer) := by
  refine ⟨_, rfl, ?_, ⟨[], "manager", "people", ?_, ?_, .here, ?_, ?_, ?_⟩, ?_⟩ <;> decide +kernel

/-- The managers are people, by their numbers. -/
theorem office_refers {person : Entity} (hperson : person.table = "people") :
    office.Refers Meaning.sqlite person person "manager_id" "id" := by
  refine Database.refers_sqlite fun source table hsource htable => ?_
  have hfound : office.table? "people" = office.tables.head? := by decide +kernel
  rw [hperson, hfound] at hsource htable
  cases hsource
  cases htable
  refine ⟨?_, ?_, ?_, .inl ?_⟩ <;> decide +kernel

/-- Who answers to Ben, by the reference and by the number of Ben. -/
theorem reference_read_directly_office : ∃ plan plan',
    make people "people" (.single .eq "manager" (.int 2)) .unsorted = .ok plan ∧
    make people "people" (.single .eq "manager.id" (.int 2)) .unsorted = .ok plan' ∧
    ∃ columns,
      run (.serving Meaning.sqlite office) (plan.select none) Sql.Statement.rows =
        .ok (columns, [[.integer 1, Cell.ofText "Ada", .integer 2]]) ∧
      run (.serving Meaning.sqlite office) (plan'.select none) Sql.Statement.rows =
        .ok (columns, [[.integer 1, Cell.ofText "Ada", .integer 2]]) := by
  have hchecked : (match make people "people" (.single .eq "manager" (.int 2)) .unsorted,
        make people "people" (.single .eq "manager.id" (.int 2)) .unsorted with
      | .ok plan, .ok plan' => decide ((∀ used ∈ plan.predicate.paths,
          used.toOne Meaning.sqlite office plan.entity = true) ∧
          plan'.Served Meaning.sqlite office ∧
          (run (.serving Meaning.sqlite office) (plan.select none)
            Sql.Statement.rows).toOption.map Prod.snd =
              some [[.integer 1, Cell.ofText "Ada", .integer 2]])
      | _, _ => false) = true := by decide +kernel
  obtain ⟨person, hperson, htable, hends, hid⟩ := people_manager
  have hjoined : "manager" ++ "." ++ "id" = "manager.id" := by decide
  rcases reference_read_directly hperson hends (by decide) (by decide) hid .eq (.int 2) with
    ⟨_, _, _, _, _, hrefused, _⟩ | ⟨plan, plan', hplan, hplan', _, hagree⟩
  · rw [hrefused] at hchecked
    cases hchecked
  · rw [hjoined] at hplan'
    rw [hplan, hplan'] at hchecked
    obtain ⟨hone, hserved, hrows⟩ := of_decide_eq_true hchecked
    have hroot : plan.entity = person :=
      Except.ok.inj ((make_eq_ok hplan).1.symm.trans hperson)
    rw [hroot] at hone
    have hsingle : ¬ Filter.EquatesList ⟨"manager", .eq, .int 2⟩ := by
      rintro ⟨_, hlist⟩
      cases hlist
    obtain ⟨answer, hanswer, hanswer'⟩ := (hagree _ _ (office_refers htable) hone).2 hserved hsingle
    rw [hanswer] at hrows
    obtain ⟨columns, rows⟩ := answer
    cases Option.some.inj hrows
    exact ⟨plan, plan', hplan, hplan', columns, hanswer, hanswer'⟩

def item : Entity :=
  (Entity.bare "items" "items").withAttribute "label" (.relation "labels" "code" "code")

/-- A label has one code, under three names. -/
def label : Entity :=
  (((Entity.bare "labels" "labels").withColumn "code" .text).withAttribute ""
    (.column "code" .text)).withAttribute "full.code" (.column "code" .text)

def labelled : Registry :=
  (Keyed.empty.insert item).insert label

def stock (held referenced : String) (labels : List String) : Database where
  tables :=
    [{ name := "items", columns := [Column.declared "code" held],
       rows := [{ number := 1, cells := [Cell.ofText "a"] }] },
     { name := "labels", columns := [Column.declared "code" referenced],
       rows := labels.mapIdx fun i label => { number := i, cells := [Cell.ofText label] } }]

def found (d : Database) (path label : String) : Except QueryError (Option Nat) :=
  (make labelled "items" (.single .eq path (.text label)) .unsorted).map fun plan =>
    (run (.serving Meaning.sqlite d) (plan.select none) Sql.Statement.rows).toOption.map
      fun answer => answer.2.length

def holdsOne (d : Database) : Bool :=
  match d.table? "items", d.table? "labels" with
  | some items, some labels => items.rows.all fun row => labels.rows.countP (fun partner =>
      decide (labels.cell "code" partner = items.cell "code" row)) == 1
  | _, _ => false

theorem length_rows {s : Sql.Statement} (h : s.window = none) :
    ((s.rows m d).map fun answer => answer.2.length) = s.total m d := by
  unfold Sql.Statement.rows Sql.Statement.total
  rw [h]
  cases s.tables m d with
  | error err => rfl
  | ok tables =>
    obtain ⟨root, joined⟩ := tables
    show Except.map _ (s.checkPatterns m root joined >>= _) = (s.checkPatterns m root joined >>= _)
    cases s.checkPatterns m root joined with
    | error err => rfl
    | ok =>
      show Except.ok ((s.ordered m root joined).map Sql.Statement.rootCells).length = _
      rw [List.length_map, Sql.Statement.ordered, List.length_mergeSort]
      rfl

/-- Counting does not sort. -/
theorem found_eq (d : Database) (path label : String) : found d path label =
    (make labelled "items" (.single .eq path (.text label)) .unsorted).map fun plan =>
      (run (.serving Meaning.sqlite d) (plan.select none) Sql.Statement.total).toOption := by
  unfold found
  refine congrArg (Except.map · _) (funext fun plan => ?_)
  have hlength := length_rows (m := Meaning.sqlite) (d := d) (s := plan.select none) rfl
  unfold run
  cases Repository.bind (plan.select none).params with
  | error err => rfl
  | ok =>
    show (Except.mapError _ ((plan.select none).rows Meaning.sqlite d)).toOption.map _ =
      (Except.mapError _ ((plan.select none).total Meaning.sqlite d)).toOption
    rw [← hlength]
    cases (plan.select none).rows Meaning.sqlite d <;> rfl

theorem item_label : EndsOn labelled item "label" item label "code" "code" .text := by
  refine ⟨[], "label", "labels", ?_, ?_, .here, ?_, ?_, ?_⟩ <;> decide +kernel

/-- It is not enough that a reference is the value in one row.  Where only the reference is compared
without regard to case, a search for `A` finds it and the join does not.  Where both columns are,
the join leads to two rows.  And no path goes through a name that is blank or has a dot. -/
theorem reference_read_apart :
    (labelled.get "items" = .ok item ∧
      EndsOn labelled item "label" item label "code" "code" .text ∧
      ∀ last ∈ ["code", "", "full.code"], label.attribute? last = some (.column "code" .text)) ∧
    (holdsOne (stock "TEXT COLLATE NOCASE" "TEXT" ["a"]) = true ∧
      found (stock "TEXT COLLATE NOCASE" "TEXT" ["a"]) "label" "A" = .ok (some 1) ∧
      found (stock "TEXT COLLATE NOCASE" "TEXT" ["a"]) "label.code" "A" = .ok (some 0)) ∧
    (holdsOne (stock "TEXT COLLATE NOCASE" "TEXT COLLATE NOCASE" ["a", "A"]) = true ∧
      found (stock "TEXT COLLATE NOCASE" "TEXT COLLATE NOCASE" ["a", "A"]) "label" "a" =
        .ok (some 1) ∧
      found (stock "TEXT COLLATE NOCASE" "TEXT COLLATE NOCASE" ["a", "A"]) "label.code" "a" =
        .ok (some 2)) ∧
    holdsOne (stock "TEXT" "TEXT" ["a"]) = true ∧
      found (stock "TEXT" "TEXT" ["a"]) "label" "a" = .ok (some 1) ∧
      found (stock "TEXT" "TEXT" ["a"]) "label." "a" =
        .error (.invalidPath "label." "" .blankSegment) ∧
      found (stock "TEXT" "TEXT" ["a"]) "label.full.code" "a" =
        .error (.invalidPath "label.full.code" "full" (.noAttribute "labels")) := by
  simp only [found_eq]
  refine ⟨⟨rfl, item_label, ?_⟩, ⟨?_, ?_, ?_⟩, ⟨?_, ?_, ?_⟩, ?_, ?_, ?_, ?_⟩ <;> decide +kernel

end Plan
end TableSearch
