/-
Attribute paths.

A path is followed through the registry one segment at a time.  Every segment but the
last is a relation, and each gives one join.  A path that ends on a relation stands for
the column that holds the reference, so its last segment needs no join.
-/
import TableSearch.Schema.Registry
import TableSearch.Filter.Key

namespace TableSearch

/-- The step over one relation of a path. -/
structure Join where
  /-- The path of the relation from the root. -/
  path : String
  /-- The path of the entity that holds the reference; none for the root. -/
  parent : Option String
  table : String
  /-- The column of the parent that holds the reference. -/
  column : String
  /-- The column of the joined table that is referenced. -/
  references : String
deriving DecidableEq, Repr

/-- A path that was followed to a column. -/
structure AttributePath where
  path : String
  joins : List Join
  /-- The path of the relation that owns the column; none for the root. -/
  owner : Option String
  column : String
  type : ColumnType
deriving DecidableEq, Repr

namespace AttributePath

/-- The path of a relation one segment longer. -/
def extended (owner : Option String) (segment : String) : String :=
  match owner with
  | none => segment
  | some path => path ++ "." ++ segment

/-- The last segment: a column, or a relation that stands for its reference. -/
def finish (r : Registry) (path : String) (joins : List Join) (owner : Option String)
    (segment : String) : Attribute → Except QueryError AttributePath
  | .column column type => .ok { path, joins, owner, column, type }
  | .relation target column references =>
      match r.find? target with
      | none => .error (.invalidPath path segment (.unregisteredTarget target))
      | some t =>
          match t.columnType? references with
          | none => .error (.invalidPath path segment (.undeclaredColumn target references))
          | some type => .ok { path, joins, owner, column, type }

def attributeAt (path : String) (e : Entity) (segment : String) :
    Except QueryError Attribute :=
  if Text.isBlank segment then .error (.invalidPath path segment .blankSegment)
  else
    match e.attribute? segment with
    | none => .error (.invalidPath path segment (.noAttribute e.name))
    | some a => .ok a

/-- Follow segments from an entity that was reached over the joins so far. -/
def follow (r : Registry) (path : String) (e : Entity) (joins : List Join)
    (owner : Option String) : List String → Except QueryError AttributePath
  | [] => .error (.invalidPath path path .emptyPath)
  | [segment] => do
      let a ← attributeAt path e segment
      finish r path joins owner segment a
  | segment :: rest => do
      match ← attributeAt path e segment with
      | .column .. => .error (.invalidPath path segment (.columnInside segment e.name))
      | .relation target column references =>
          match r.find? target with
          | none => .error (.invalidPath path segment (.unregisteredTarget target))
          | some t =>
              let here := extended owner segment
              follow r path t
                (joins ++ [{ path := here, parent := owner, table := t.table, column, references }])
                (some here) rest

def resolve (r : Registry) (root : Entity) (path : String) :
    Except QueryError AttributePath :=
  follow r path root [] none (Text.pieces Filter.segmentSeparator path)

end AttributePath
end TableSearch
