/-
Tables and databases.

The names of tables and columns are matched without regard to the case of ASCII
letters.  Every row has a number, which also goes by names of its own.
-/
import TableSearch.Database.Comparison

namespace TableSearch

def sameName (a b : String) : Bool :=
  Text.asciiLower a == Text.asciiLower b

structure Column where
  name : String
  declaration : Declaration
deriving DecidableEq, Repr

namespace Column

def declared (name declaration : String) : Column where
  name
  declaration := Declaration.ofText declaration

def affinity (c : Column) : Affinity :=
  match c.declaration.type with
  | some type => Affinity.ofType type
  | none => .none

def isBoolean (c : Column) : Bool :=
  c.declaration.isBoolean

def isRowNumber (c : Column) : Bool :=
  c.declaration.isRowNumber

def traits (c : Column) : Traits where
  affinity := c.affinity
  collation := c.declaration.collation
  isRowNumber := c.isRowNumber

end Column

/-- A stored row: its number, and one cell for each column. -/
structure Row where
  number : Int
  cells : List Cell
deriving DecidableEq

structure Table where
  name : String
  columns : List Column
  rows : List Row
deriving DecidableEq

/-- What a name in a table stands for. -/
inductive Slot where
  | column (i : Nat)
  | rowNumber
deriving DecidableEq, Repr

namespace Table

/-! ## Looking up -/

/-- The names of the row number, where no column has them. -/
def rowNumberNames : List String := ["rowid", "oid", "_rowid_"]

def slot? (t : Table) (name : String) : Option Slot :=
  match t.columns.findIdx? fun c => sameName c.name name with
  | some i => some (.column i)
  | none => if rowNumberNames.any (sameName name) then some .rowNumber else none

def rowNumberTraits : Traits where
  affinity := .integer
  collation := .binary
  isRowNumber := true

/-- The traits of a name; those of no column when the table lacks it. -/
def traits (t : Table) (name : String) : Traits :=
  match t.slot? name with
  | some (.column i) =>
      match t.columns[i]? with
      | some c => c.traits
      | none => { affinity := .none, collation := .binary, isRowNumber := false }
  | some .rowNumber => rowNumberTraits
  | none => { affinity := .none, collation := .binary, isRowNumber := false }

def cell (t : Table) (name : String) (row : Row) : Cell :=
  match t.slot? name with
  | some (.column i) => row.cells.getD i .null
  | some .rowNumber => .integer (Int64.ofInt row.number)
  | none => .null

/-! ## Filling -/

def storedCells (columns : List Column) (cells : List Cell) : List Cell :=
  List.zipWith (fun (c : Column) cell => cell.stored c.affinity) columns cells

def givenNumber? (columns : List Column) (cells : List Cell) : Option Int :=
  match columns.findIdx? Column.isRowNumber with
  | some i =>
      match cells[i]? with
      | some (.integer n) => some n.toInt
      | _ => none
  | none => none

/-- The number after the highest one.  Where numbers are never used again it is positive. -/
def nextNumber (columns : List Column) (highest : Option Int) : Int :=
  let n := match highest with
    | some n => n + 1
    | none => 1
  if columns.any fun c => c.declaration.autoincrement then max n 1 else n

/-- The cells with the number of the row in its column, if there is one. -/
def withNumber (columns : List Column) (n : Int) (cells : List Cell) : List Cell :=
  match columns.findIdx? Column.isRowNumber with
  | some i => cells.set i (.integer (Int64.ofInt n))
  | none => cells

/-- Rows from cells.  A row that is given no number takes the next one. -/
def numbered (columns : List Column) (highest : Option Int) : List (List Cell) → List Row
  | [] => []
  | cells :: rest =>
      let cells := storedCells columns cells
      let n := (givenNumber? columns cells).getD (nextNumber columns highest)
      { number := n, cells := withNumber columns n cells } ::
        numbered columns (some (max (highest.getD n) n)) rest

/-- A new table with these rows, which are kept in the order of their numbers. -/
def make (name : String) (columns : List Column) (rows : List (List Cell)) : Table where
  name
  columns
  rows := (numbered columns none rows).mergeSort fun a b => decide (a.number ≤ b.number)

end Table

structure Database where
  tables : List Table
deriving DecidableEq

namespace Database

def empty : Database where
  tables := []

/-! ## The catalog -/

def catalogNames : List String := ["sqlite_master", "sqlite_schema"]

def quoted (name : String) : String :=
  "\"" ++ String.ofList (Text.replaceChars '"' ['"', '"'] name.toList) ++ "\""

def creation (t : Table) : String :=
  "CREATE TABLE " ++ quoted t.name ++ " (" ++
    Text.joined ", " (t.columns.map fun c => quoted c.name ++ " " ++ c.declaration.text) ++ ")"

/-- The names of the indexes that the columns of a table need. -/
def indexNames (t : Table) : List String :=
  (List.range (t.columns.filter fun c => c.declaration.isIndexed).length).map fun i =>
    "sqlite_autoindex_" ++ t.name ++ "_" ++ toString (i + 1)

/-- The entries of a table and its indexes, without their pages. -/
def entriesOf (t : Table) : List (Cell × Cell × Cell × Cell) :=
  (Cell.ofText "table", Cell.ofText t.name, Cell.ofText t.name, Cell.ofText (creation t)) ::
    (indexNames t).map fun index =>
      (Cell.ofText "index", Cell.ofText index, Cell.ofText t.name, Cell.null)

/-- The table of all tables and indexes.  The first page is that of the catalog. -/
def catalog (d : Database) : Table :=
  Table.make "sqlite_schema"
    [Column.declared "type" "TEXT", Column.declared "name" "TEXT",
      Column.declared "tbl_name" "TEXT", Column.declared "rootpage" "INT",
      Column.declared "sql" "TEXT"]
    ((d.tables.flatMap entriesOf).zipIdx.map fun ((kind, name, table, sql), i) =>
      [kind, name, table, .integer (Int64.ofNat (i + 2)), sql])

def table? (d : Database) (name : String) : Option Table :=
  match d.tables.find? fun t => sameName t.name name with
  | some t => some t
  | none => if catalogNames.any (sameName name) then some d.catalog else none

end Database
end TableSearch
