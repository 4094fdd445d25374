/-
Sort orders.
-/
import TableSearch.Json.Decode
import TableSearch.Json.Node
import TableSearch.Text.Cut

namespace TableSearch

inductive Direction where
  | asc
  | desc
deriving DecidableEq, Repr

namespace Direction

def name : Direction → String
  | .asc => "asc"
  | .desc => "desc"

def sql : Direction → String
  | .asc => "ASC"
  | .desc => "DESC"

def isDescending : Direction → Bool
  | .asc => false
  | .desc => true

def words : List (String × Direction) :=
  [("asc", .asc), ("desc", .desc)]

/-- The direction of a word in any case; a message for any other text. -/
def parse (s : String) : Except String Direction :=
  match Text.asciiLower s with
  | "asc" => .ok .asc
  | "desc" => .ok .desc
  | _ => .error ("Invalid sort direction '" ++ s ++ "'. Valid options: asc, desc")

end Direction

/-- Where rows without a value stand. -/
inductive NullHandling where
  /-- Where the database puts them. -/
  | native
  | nullsFirst
  | nullsLast
deriving DecidableEq, Repr

namespace NullHandling

def name : NullHandling → String
  | .native => "native"
  | .nullsFirst => "nulls_first"
  | .nullsLast => "nulls_last"

def words : List (String × NullHandling) :=
  [("native", .native), ("nulls_first", .nullsFirst), ("nulls_last", .nullsLast)]

end NullHandling

structure SortTerm where
  property : String
  direction : Direction := .asc
  nulls : NullHandling := .native
deriving DecidableEq, Repr

namespace SortTerm

def nullsFirst (t : SortTerm) : SortTerm :=
  { t with nulls := .nullsFirst }

def nullsLast (t : SortTerm) : SortTerm :=
  { t with nulls := .nullsLast }

def toNode (t : SortTerm) : Json.Node :=
  .object [("property", .string t.property), ("direction", .string t.direction.name),
    ("null_handling", .string t.nulls.name)]

def ofParsed : Json.Decoder SortTerm := fun n => do
  let fs ← Json.Fields.ofParsed n
  let property ← fs.required 0 "property" Json.Decode.string
  let direction ← fs.defaulted 1 "direction" (Json.Decode.keyword Direction.words) .asc
  let nulls ← fs.defaulted 2 "null_handling" (Json.Decode.keyword NullHandling.words) .native
  fs.closed 3 .malformed
  return { property, direction, nulls }

end SortTerm

/-- Terms of a sort order, the most important first. -/
structure SortOrder where
  terms : List SortTerm
deriving DecidableEq, Repr

namespace SortOrder

def unsorted : SortOrder where
  terms := []

def ofTerm (t : SortTerm) : SortOrder where
  terms := [t]

def and (s : SortOrder) (t : SortTerm) : SortOrder where
  terms := s.terms ++ [t]

def isUnsorted (s : SortOrder) : Bool :=
  s.terms.isEmpty

def toNode (s : SortOrder) : Json.Node :=
  .array (s.terms.map SortTerm.toNode)

def ofParsed : Json.Decoder SortOrder := fun n => do
  let terms ← Json.Decode.array SortTerm.ofParsed n
  return { terms }

def ofJson (text : String) : Except Json.Fault SortOrder :=
  Json.decodeText ofParsed text

end SortOrder
end TableSearch
