/-
Configuration files, and how one is laid over another.
-/
import TableSearch.Schema.Registry
import TableSearch.Sql.Backend

namespace TableSearch

structure DatabaseSection where
  backend : Option Backend
  url : Option String
  maxConnections : Option UInt32
deriving DecidableEq

structure QuerySection where
  defaultLimit : Option UInt32
deriving DecidableEq

structure ConfigFile where
  database : Option DatabaseSection
  query : Option QuerySection
  entities : Option (List Entity)
  /-- The names of other fields, each once. -/
  unknown : List String
deriving DecidableEq

/-! ## Reading -/

namespace ConfigFile

open Json (Fault Decoder Fields)

def word32 : Decoder UInt32 := fun n => do
  let k ← Json.Decode.natBelow (2 ^ 32) n
  return UInt32.ofNat k

def databaseSection : Decoder DatabaseSection := fun n => do
  let fs ← Fields.ofParsed n
  let backend ← fs.optional 0 "backend" (Json.Decode.keyword Backend.words)
  let url ← fs.optional 1 "url" Json.Decode.string
  let maxConnections ← fs.optional 2 "max_connections" word32
  fs.closed 3 .malformed
  return { backend, url, maxConnections }

def querySection : Decoder QuerySection := fun n => do
  let fs ← Fields.ofParsed n
  let defaultLimit ← fs.optional 0 "default_limit" word32
  fs.closed 1 .malformed
  return { defaultLimit }

def knownFields : List String := ["database", "query", "entities"]

/-- A list without the repetitions of earlier items. -/
def distinct (names : List String) : List String :=
  names.foldl (fun done s => if done.contains s then done else done ++ [s]) []

/-- The names of the fields that are not known.  Their values must be usable. -/
def unknownFields : Fields → Except Fault (List String)
  | .named entries => do
      let unknown := entries.filter fun e => !knownFields.contains e.1
      unknown.forM fun e => Json.Decode.whole (fun _ => .ok ()) e.2
      return distinct (unknown.map Prod.fst)
  | .ordered _ => .error .mismatched

def ofParsed : Decoder ConfigFile := fun n => do
  let fs ← Fields.ofParsed n
  let unknown ← unknownFields fs
  let database ← fs.optional 0 "database" databaseSection
  let query ← fs.optional 1 "query" querySection
  let entities ← fs.optional 2 "entities" Registry.entitiesOfParsed
  return { database, query, entities, unknown }

def ofJson (text : String) : Except Fault ConfigFile :=
  Json.decodeText ofParsed text

/-- The warning about fields that may be typing errors. -/
def warnings (c : ConfigFile) : List Warning :=
  if c.unknown.isEmpty then [] else [.unknownFields c.unknown]

/-! ## Layers -/

def blank : ConfigFile where
  database := none
  query := none
  entities := none
  unknown := []

end ConfigFile

/-- The section with the fields of a later one, where that has them. -/
def DatabaseSection.overlay (earlier later : DatabaseSection) : DatabaseSection where
  backend := later.backend <|> earlier.backend
  url := later.url <|> earlier.url
  maxConnections := later.maxConnections <|> earlier.maxConnections

def QuerySection.overlay (earlier later : QuerySection) : QuerySection where
  defaultLimit := later.defaultLimit <|> earlier.defaultLimit

namespace ConfigFile

/-- Two values that may be missing. -/
def combine {α : Type} (f : α → α → α) : Option α → Option α → Option α
  | some a, some b => some (f a b)
  | a, none => a
  | none, b => b

/-- Put an entity last, instead of one of the same name. -/
def redefine (entities : List Entity) (e : Entity) : List Entity :=
  entities.filter (fun d => d.name != e.name) ++ [e]

/-- The entities of an earlier list redefined by a later one. -/
def mergeEntities (earlier later : List Entity) : List Entity :=
  later.foldl redefine earlier

/-- One file over another.  Sections are combined field by field, and entities by name. -/
def overlay (earlier later : ConfigFile) : ConfigFile where
  database := combine DatabaseSection.overlay earlier.database later.database
  query := combine QuerySection.overlay earlier.query later.query
  entities :=
    match later.entities with
    | some entities => some (mergeEntities (earlier.entities.getD []) entities)
    | none => earlier.entities
  unknown := earlier.unknown

end ConfigFile
end TableSearch
