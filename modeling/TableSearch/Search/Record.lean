/-
Rows with the names of their columns.
-/
import TableSearch.Database.Table

namespace TableSearch

/-- A row as columns and values, in the order of the columns. -/
structure Record where
  fields : List (String × Value)

namespace Record

def get? (r : Record) (column : String) : Option Value :=
  (r.fields.find? fun f => f.1 == column).map Prod.snd

def columns (r : Record) : List String :=
  r.fields.map Prod.fst

def size (r : Record) : Nat :=
  r.fields.length

def isEmpty (r : Record) : Bool :=
  r.fields.isEmpty

def toNode (r : Record) : Json.Node :=
  .object (r.fields.map fun (column, value) => (column, value.toNode))

/-- The record as a tree in which no key is repeated. -/
def toMergedNode (r : Record) : Json.Node :=
  Json.Node.mergedObject (r.fields.map fun (column, value) => (column, value.toNode))

def ofCells (columns : List Column) (cells : List Cell) : Record where
  fields := List.zipWith (fun (c : Column) (cell : Cell) => (c.name, cell.toValue c.isBoolean))
    columns cells

end Record
end TableSearch
