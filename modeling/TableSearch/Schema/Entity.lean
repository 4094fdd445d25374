/-
Entities: tables with the attributes that can be searched.
-/
import TableSearch.Schema.Column

namespace TableSearch

inductive Attribute where
  /-- A column of the entity's table. -/
  | column (column : String) (type : ColumnType)
  /-- A relation to at most one row: `column` of this table holds a value of the column
  `references` of another entity. -/
  | relation (entity column references : String)
deriving DecidableEq

structure Entity where
  name : String
  table : String
  attributes : Dict Attribute
deriving DecidableEq

namespace Entity

def bare (name table : String) : Entity where
  name
  table
  attributes := Keyed.empty

def withAttribute (e : Entity) (name : String) (a : Attribute) : Entity :=
  { e with attributes := e.attributes.set name a }

def withColumn (e : Entity) (name : String) (type : ColumnType) : Entity :=
  e.withAttribute name (.column name type)

def attribute? (e : Entity) (name : String) : Option Attribute :=
  e.attributes.get? name

/-- The type under which an attribute declares a column of the table. -/
def declaredType? (column : String) : Attribute → Option ColumnType
  | .column c type => if c = column then some type else none
  | .relation .. => none

/-- The type of a column of the table; the first attribute that declares it decides. -/
def columnType? (e : Entity) (column : String) : Option ColumnType :=
  e.attributes.values.findSome? (declaredType? column)

end Entity

/-! ## JSON -/

namespace Attribute

def toNode : Attribute → Json.Node
  | .column name type =>
      .object [("kind", .string "column"), ("column", .string name),
        ("type", .string type.name)]
  | .relation entity name references =>
      .object [("kind", .string "relation"), ("entity", .string entity),
        ("column", .string name), ("references", .string references)]

/-- The fields of an attribute whose kind is known. -/
def ofFields (kind : String) (fs : Json.Fields) : Except Json.Fault Attribute :=
  match kind with
  | "column" => do
      let name ← fs.required 0 "column" Json.Decode.string
      let type ← fs.required 1 "type" (Json.Decode.looseKeyword ColumnType.words)
      fs.closed 2 .mismatched
      return .column name type
  | "relation" => do
      let entity ← fs.required 0 "entity" Json.Decode.string
      let name ← fs.required 1 "column" Json.Decode.string
      let references ← fs.required 2 "references" Json.Decode.string
      fs.closed 3 .mismatched
      return .relation entity name references
  | _ => .error .mismatched

/-- The attribute of a tree.  The kind stands under its own name, or first in an
array. -/
def ofParsed : Json.Decoder Attribute
  | .object entries => do
      let fs ← Json.Fields.ofEntries entries
      let kind ← fs.required 0 "kind" Json.Decode.string
      ofFields kind fs
  | .array (kind :: rest) => do
      let kind ← Json.Decode.string kind
      ofFields kind (.ordered rest)
  | _ => .error .mismatched

end Attribute

namespace Entity

def toNode (e : Entity) : Json.Node :=
  .object [("name", .string e.name), ("table", .string e.table),
    ("attributes", .object (e.attributes.entries.map fun (name, a) => (name, a.toNode)))]

def ofParsed : Json.Decoder Entity := fun n => do
  let fs ← Json.Fields.ofParsed n
  let name ← fs.required 0 "name" Json.Decode.string
  let table ← fs.required 1 "table" Json.Decode.string
  let attributes ← fs.defaulted 2 "attributes"
    (Json.Decode.dict (Json.Decode.whole Attribute.ofParsed)) Keyed.empty
  fs.closed 3 .malformed
  return { name, table, attributes }

end Entity
end TableSearch
