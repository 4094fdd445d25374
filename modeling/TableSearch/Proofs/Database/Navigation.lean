/-
Paths followed from row to row.

A place is a row of a table, or no row where a reference led nowhere.  `read` follows the
segments of a path from a place through the registry, without statements and joins: over
each relation to the row that agrees with the reference, and at the last segment to a
cell.  `read_of_walk` says the same of the joins that a path resolves to.
-/
import TableSearch.Database.Execution
import TableSearch.Proofs.Schema.Walk

namespace TableSearch

def Table.agreeing (m : Meaning) (t : Table) (column : String) (x : Operand) : List Row :=
  t.rows.filter fun row =>
    m.equal { cell := t.cell column row, traits := t.traits column } x == .yes

/-- No row agrees with a missing value. -/
theorem Table.agreeing_null {m : Meaning} (t : Table) (column : String) {x : Operand}
    (h : x.cell = .null) : t.agreeing m column x = [] := by
  refine List.filter_eq_nil_iff.mpr fun row _ he => ?_
  exact m.equal_null _ x h (by simpa using he)

structure Place where
  table : Table
  row : Option Row

namespace Place

def operand (p : Place) (column : String) : Operand where
  cell :=
    match p.row with
    | some row => p.table.cell column row
    | none => .null
  traits := p.table.traits column

def follow (m : Meaning) (p : Place) (column : String) (t : Table) (references : String) :
    Place where
  table := t
  row := p.row.bind fun _ => (t.agreeing m references (p.operand column)).head?

/-- Without a row there is nothing to agree with. -/
theorem follow_row (m : Meaning) (p : Place) (column : String) (t : Table) (references : String) :
    (p.follow m column t references).row =
      (t.agreeing m references (p.operand column)).head? := by
  cases h : p.row with
  | some row => simp [follow, h]
  | none =>
    have hnull : (p.operand column).cell = .null := by simp [operand, h]
    rw [Table.agreeing_null t references hnull]
    simp [follow, h]

/-- The value at the end of a path and the type that it is declared with; none where the
schema or the database has no such path. -/
def read (m : Meaning) (d : Database) (r : Registry) (e : Entity) (p : Place) :
    List String → Option (Operand × ColumnType)
  | [] => none
  | [segment] =>
      match e.attribute? segment with
      | some (.column column type) => some (p.operand column, type)
      | some (.relation target column references) => do
          let t ← r.find? target
          let type ← t.columnType? references
          return (p.operand column, type)
      | none => none
  | segment :: rest =>
      match e.attribute? segment with
      | some (.relation target column references) => do
          let t ← r.find? target
          let table ← d.table? t.table
          read m d r t (p.follow m column table references) rest
      | _ => none

def along (m : Meaning) (d : Database) (p : Place) : List Join → Option Place
  | [] => some p
  | j :: rest => do
      let t ← d.table? j.table
      along m d (p.follow m j.column t j.references) rest

/-- A path is followed as its joins say. -/
theorem read_of_walk {m : Meaning} {d : Database} {r : Registry} {e : Entity}
    {owner goal : Option String} {segments : List String} {joins : List Join} {column : String}
    {type : ColumnType} (h : AttributePath.Walk r e owner segments joins goal column type)
    (p : Place) :
    p.read m d r e segments = (p.along m d joins).map fun q => (q.operand column, type) := by
  induction h generalizing p with
  | column _ ha => simp [read, ha, along]
  | reference _ ha ht htype => simp [read, ha, ht, htype, along]
  | @relation e t owner segment target column references rest joins goal last type _ ha ht h ih =>
    cases rest with
    | nil => cases h
    | cons next rest =>
      cases htable : d.table? t.table with
      | none => simp [read, ha, ht, along, AttributePath.hop, htable]
      | some table => simp [read, ha, ht, along, AttributePath.hop, htable, ih]

end Place

namespace Table

/-! ## Conditions on the data -/

def refersToOne (m : Meaning) (source : Table) (column : String) (t : Table)
    (references : String) : Bool :=
  source.rows.all fun row =>
    decide ((t.agreeing m references (Place.operand ⟨source, some row⟩ column)).length ≤ 1)

theorem length_agreeing_le {m : Meaning} {source t : Table} {column references : String}
    (h : source.refersToOne m column t references = true) {row : Row} (hrow : row ∈ source.rows) :
    (t.agreeing m references (Place.operand ⟨source, some row⟩ column)).length ≤ 1 := by
  simpa using List.all_eq_true.mp h row hrow

def toOne (m : Meaning) (d : Database) (source : Table) : List Join → Bool
  | [] => true
  | j :: rest =>
      match d.table? j.table with
      | some t => source.refersToOne m j.column t j.references && toOne m d t rest
      | none => true

/-- The database has the tables of a chain of joins, and the columns that it names. -/
def stores (d : Database) (source : Table) (column : String) : List Join → Bool
  | [] => (source.slot? column).isSome
  | j :: rest =>
      (source.slot? j.column).isSome &&
        match d.table? j.table with
        | some t => (t.slot? j.references).isSome && stores d t column rest
        | none => false

theorem exists_of_stores {d : Database} {source : Table} {column : String} {js : List Join}
    (h : source.stores d column js = true) : ∀ j ∈ js, ∃ t, d.table? j.table = some t := by
  induction js generalizing source with
  | nil =>
    intro j hj
    cases hj
  | cons first rest ih =>
    cases ht : d.table? first.table with
    | none => simp [stores, ht] at h
    | some t =>
      simp only [stores, ht, Bool.and_eq_true] at h
      intro j hj
      rcases List.mem_cons.mp hj with rfl | hj
      · exact ⟨t, ht⟩
      · exact ih h.2.2 j hj

end Table

namespace AttributePath

def toOne (m : Meaning) (d : Database) (root : Entity) (path : AttributePath) : Bool :=
  match d.table? root.table with
  | some t => t.toOne m d path.joins
  | none => true

def stored (d : Database) (root : Entity) (path : AttributePath) : Bool :=
  match d.table? root.table with
  | some t => t.stores d path.column path.joins
  | none => false

end AttributePath
end TableSearch
