/-
The values that filters carry and rows hold.
-/
import TableSearch.Json.Decode
import TableSearch.Json.Node

namespace TableSearch

/-- A filter value.  There are lists, but no objects. -/
inductive Value where
  | null
  | bool (b : Bool)
  | int (n : Int64)
  | float (x : Double)
  | text (s : String)
  | list (items : List Value)
deriving Inhabited

/-- The kind of a value, without the value. -/
inductive ValueKind where
  | null
  | boolean
  | integer
  | float
  | string
  | list
deriving DecidableEq, Repr

def ValueKind.name : ValueKind → String
  | .null => "null"
  | .boolean => "boolean"
  | .integer => "integer"
  | .float => "float"
  | .string => "string"
  | .list => "list"

namespace Value

def kind : Value → ValueKind
  | .null => .null
  | .bool _ => .boolean
  | .int _ => .integer
  | .float _ => .float
  | .text _ => .string
  | .list _ => .list

def isNull : Value → Bool
  | .null => true
  | _ => false

def isList : Value → Bool
  | .list _ => true
  | _ => false

/-! ## Texts -/

def boolText (b : Bool) : String :=
  if b then "true" else "false"

def intText (n : Int64) : String :=
  String.ofList (Json.intChars n.toInt)

/-- The text of a value in a pattern.  Null and lists have none. -/
def patternText? : Value → Option String
  | .text s => some s
  | .bool b => some (boolText b)
  | .int n => some (intText n)
  | .float x => some (Layout.plain.text x)
  | .null => none
  | .list _ => none

mutual

/-- The text of a value for people.  Texts stand without quotes. -/
def display : Value → String
  | .null => "null"
  | .bool b => boolText b
  | .int n => intText n
  | .float x => Layout.plain.text x
  | .text s => s
  | .list items => "[" ++ displayItems items ++ "]"

def displayItems : List Value → String
  | [] => ""
  | [item] => item.display
  | item :: rest => item.display ++ ", " ++ displayItems rest

end

/-! ## JSON -/

mutual

/-- The JSON tree of a value.  A float that is no finite number becomes null. -/
def toNode : Value → Json.Node
  | .null => .null
  | .bool b => .bool b
  | .int n => .int n.toInt
  | .float x => .float x
  | .text s => .string s
  | .list items => .array (toNodes items)

def toNodes : List Value → List Json.Node
  | [] => []
  | item :: rest => item.toNode :: toNodes rest

end

def toJson (v : Value) : String :=
  v.toNode.compact

mutual

def ofParsed : Json.Parsed → Except Json.Fault Value
  | .null => .ok .null
  | .bool b => .ok (.bool b)
  | .int n => .ok (.int (Int64.ofInt n))
  | .float x => .ok (.float x)
  | .string s => .ok (.text s)
  | .array items => (ofParsedItems items).map .list
  | .object _ => .error .mismatched
  | .unusable => .error .malformed

def ofParsedItems : List Json.Parsed → Except Json.Fault (List Value)
  | [] => .ok []
  | item :: rest => do
      let v ← ofParsed item
      let vs ← ofParsedItems rest
      return v :: vs

end

def ofJson (text : String) : Except Json.Fault Value :=
  Json.decodeText ofParsed text

end Value
end TableSearch
