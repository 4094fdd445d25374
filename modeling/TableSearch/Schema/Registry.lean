/-
Registered entities.
-/
import TableSearch.QueryError
import TableSearch.Schema.Entity
import TableSearch.Text.Blank

namespace TableSearch

/-- Entities under their names, in name order. -/
abbrev Registry : Type := Keyed Entity Entity.name

/-- What a user should know, although nothing failed. -/
inductive Warning where
  | replacedEntity (name : String)
  | unknownFields (names : List String)
deriving DecidableEq, Repr

def Warning.message : Warning → String
  | .replacedEntity name => "Replacing registered entity entity=" ++ name
  | .unknownFields names =>
      "Unknown fields in config file (possible typos) fields=" ++ String.intercalate ", " names

namespace Registry

/-- Register an entity, instead of any of the same name. -/
def register (r : Registry) (e : Entity) : Registry :=
  r.insert e

def replacing (r : Registry) (e : Entity) : List Warning :=
  if r.contains e.name then [.replacedEntity e.name] else []

/-- Register entities one by one, and collect the warnings. -/
def registerAll (r : Registry) : List Entity → Registry × List Warning
  | [] => (r, [])
  | e :: rest =>
      let (done, warnings) := registerAll (r.register e) rest
      (done, r.replacing e ++ warnings)

def load (entities : List Entity) : Registry × List Warning :=
  registerAll Keyed.empty entities

def get (r : Registry) (name : String) : Except QueryError Entity :=
  match r.find? name with
  | some e => .ok e
  | none => .error (.unknownEntity name)

/-! ## Validation -/

/-- A relation must lead to a registered entity that declares the referenced column. -/
def checkAttribute (r : Registry) (e : Entity) (name : String) :
    Attribute → Except QueryError Unit
  | .column .. => .ok ()
  | .relation target _ references =>
      match r.find? target with
      | none => .error (.invalidSchema (.unknownTarget e.name name target))
      | some t =>
          match t.columnType? references with
          | none => .error (.invalidSchema (.unknownColumn e.name name target references))
          | some _ => .ok ()

def checkEntity (r : Registry) (e : Entity) : Except QueryError Unit :=
  if Text.isBlank e.table then .error (.invalidSchema (.blankTable e.name))
  else e.attributes.entries.forM fun (name, a) => checkAttribute r e name a

/-- Every entity has a table, and no relation dangles.  The first fault in name order
decides the error. -/
def validate (r : Registry) : Except QueryError Unit :=
  r.items.forM (checkEntity r)

/-! ## JSON -/

def toNode (r : Registry) : Json.Node :=
  .array (r.items.map Entity.toNode)

def toJson (r : Registry) : String :=
  (toNode r).compact

def entitiesOfParsed : Json.Decoder (List Entity) :=
  Json.Decode.array Entity.ofParsed

def ofParsed : Json.Decoder (Registry × List Warning) := fun n => do
  let entities ← entitiesOfParsed n
  return load entities

end Registry
end TableSearch
