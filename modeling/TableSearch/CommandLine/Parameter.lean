/-
The parameters of the command line and their values.
-/
import TableSearch.CommandLine.UsageError
import TableSearch.Filter.Key
import TableSearch.Sql.Backend

namespace TableSearch

inductive CommandName where
  | list
  | page
  | count
  | entities
deriving DecidableEq, Repr

namespace CommandName

def all : List CommandName := [.list, .page, .count, .entities]

def word : CommandName → String
  | .list => "list"
  | .page => "page"
  | .count => "count"
  | .entities => "entities"

def ofWord? (word : String) : Option CommandName :=
  all.find? fun c => c.word == word

end CommandName

inductive Parameter where
  | config
  | backend
  | databaseUrl
  | maxConnections
  | entity
  | filter
  | sort
  | page
  | limit
deriving DecidableEq, Repr

namespace Parameter

def long : Parameter → String
  | .config => "config"
  | .backend => "backend"
  | .databaseUrl => "database-url"
  | .maxConnections => "max-connections"
  | .entity => "entity"
  | .filter => "filter"
  | .sort => "sort"
  | .page => "page"
  | .limit => "limit"

def short? : Parameter → Option Char
  | .config => some 'c'
  | .entity => some 'e'
  | .filter => some 'f'
  | .sort => some 's'
  | _ => none

/-- The environment variable that stands in for the parameter. -/
def envName? : Parameter → Option String
  | .config => some "CQUERY_CONFIG"
  | .backend => some "CQUERY_BACKEND"
  | .databaseUrl => some "CQUERY_DATABASE_URL"
  | .maxConnections => some "CQUERY_MAX_CONNECTIONS"
  | _ => none

/-- Whether the parameter may be given more than once. -/
def repeatable : Parameter → Bool
  | .filter => true
  | .sort => true
  | _ => false

/-- The parameters that stand before or after a command. -/
def everywhere : List Parameter := [.config, .backend, .databaseUrl, .maxConnections]

def ofCommand : CommandName → List Parameter
  | .list => [.entity, .filter, .sort]
  | .page => [.entity, .filter, .sort, .page, .limit]
  | .count => [.entity, .filter]
  | .entities => []

end Parameter

/-! ## Values -/

/-- A value that was read for a parameter. -/
inductive Argument where
  | text (s : String)
  | backend (b : Backend)
  | number (n : UInt32)
  | filter (key : String) (value : Value)
  | term (t : SortTerm)

namespace Argument

/-- A signed 64-bit number digit by digit; the first digit at fault decides the error. -/
def readDigits (negative : Bool) (n : Int) : List Char → Except String Int
  | [] => .ok n
  | c :: rest =>
      if c.isDigit then
        let d : Int := c.toNat - 48
        let n := n * 10 + (if negative then -d else d)
        if 2 ^ 63 ≤ n then .error "number too large to fit in target type"
        else if n < -(2 ^ 63) then .error "number too small to fit in target type"
        else readDigits negative n rest
      else .error "invalid digit found in string"

def readInt : List Char → Except String Int
  | [] => .error "cannot parse integer from empty string"
  | ['+'] => .error "invalid digit found in string"
  | ['-'] => .error "invalid digit found in string"
  | '+' :: rest => readDigits false 0 rest
  | '-' :: rest => readDigits true 0 rest
  | cs => readDigits false 0 cs

/-- A number of 32 bits. -/
def readNumber (s : String) : Except String UInt32 := do
  let n ← readInt s.toList
  if 0 ≤ n ∧ n < 2 ^ 32 then return UInt32.ofNat n.toNat
  else throw (String.ofList (Json.intChars n) ++ " is not in 0..=4294967295")

/-- A filter as a key, an equals sign and a value.  The value is JSON, if it can be read
so, and otherwise a text. -/
def readFilter (s : String) : Except String (String × Value) :=
  match Text.cutFirst '=' s with
  | none => .error ("Invalid filter '" ++ s ++ "'. Expected KEY=VALUE")
  | some (key, raw) =>
      let key := Text.trim key
      if key.isEmpty then .error ("Invalid filter '" ++ s ++ "'. Key must not be empty")
      else
        match Value.ofJson raw with
        | .ok v => .ok (key, v)
        | .error _ => .ok (key, .text raw)

/-- A sort term as a property with an optional direction after the last colon. -/
def readTerm (s : String) : Except String SortTerm := do
  let (property, direction) ← match Text.cutLast ':' s with
    | some (property, word) => do
        let direction ← Direction.parse word
        pure (property, direction)
    | none => pure (s, Direction.asc)
  let property := Text.trim property
  if property.isEmpty then
    throw ("Invalid sort '" ++ s ++ "'. Expected PROPERTY[:asc|desc]")
  else return { property, direction }

end Argument

def Parameter.read (p : Parameter) (s : String) : Except UsageError Argument :=
  match p with
  | .config => if s.isEmpty then .error .noValue else .ok (.text s)
  | .databaseUrl => .ok (.text s)
  | .entity => .ok (.text s)
  | .backend => ((Backend.parse s).map .backend).mapError .badValue
  | .maxConnections => ((Argument.readNumber s).map .number).mapError .badValue
  | .page => ((Argument.readNumber s).map .number).mapError .badValue
  | .limit => ((Argument.readNumber s).map .number).mapError .badValue
  | .filter =>
      ((Argument.readFilter s).map fun (key, v) => Argument.filter key v).mapError .badValue
  | .sort => ((Argument.readTerm s).map .term).mapError .badValue

end TableSearch
