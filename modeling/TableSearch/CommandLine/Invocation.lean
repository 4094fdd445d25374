/-
Command lines as commands.
-/
import TableSearch.CommandLine.Scan
import TableSearch.Search.Page
import TableSearch.Settings.Layers

namespace TableSearch

/-- The entity of a search and its filters, as they were given. -/
structure SearchArguments where
  entity : String
  filters : List (String × Value)

namespace SearchArguments

/-- The filters as search parameters; the last of a key counts. -/
def params (s : SearchArguments) : SearchParams :=
  Keyed.ofList s.filters

end SearchArguments

inductive Command where
  | list (search : SearchArguments) (terms : List SortTerm)
  | page (search : SearchArguments) (terms : List SortTerm) (page : UInt32)
      (limit : Option UInt32)
  | count (search : SearchArguments)
  | entities

namespace Command

def search? : Command → Option SearchArguments
  | .list s _ => some s
  | .page s _ _ _ => some s
  | .count s => some s
  | .entities => none

def name : Command → CommandName
  | .list .. => .list
  | .page .. => .page
  | .count .. => .count
  | .entities => .entities

def sort : Command → SortOrder
  | .list _ terms => ⟨terms⟩
  | .page _ terms _ _ => ⟨terms⟩
  | .count _ => .unsorted
  | .entities => .unsorted

end Command

/-- A command and the settings given with it. -/
structure Invocation where
  overrides : Overrides
  command : Command

namespace Invocation

/-! ## Values of parameters -/

abbrev Arguments : Type := List (Parameter × Argument)

def text? (p : Parameter) (as : Arguments) : Option String :=
  as.findSome? fun
    | (q, .text s) => if q = p then some s else none
    | _ => none

def number? (p : Parameter) (as : Arguments) : Option UInt32 :=
  as.findSome? fun
    | (q, .number n) => if q = p then some n else none
    | _ => none

def backend? (as : Arguments) : Option Backend :=
  as.findSome? fun
    | (_, .backend b) => some b
    | _ => none

def filters (as : Arguments) : List (String × Value) :=
  as.filterMap fun
    | (_, .filter key v) => some (key, v)
    | _ => none

def terms (as : Arguments) : List SortTerm :=
  as.filterMap fun
    | (_, .term t) => some t
    | _ => none

/-- The settings among arguments; the first value of each counts. -/
def overridesOf (as : Arguments) : Overrides where
  config := text? .config as
  backend := backend? as
  databaseUrl := text? .databaseUrl as
  maxConnections := number? .maxConnections as

def searchArguments (as : Arguments) : Except UsageError SearchArguments :=
  match text? .entity as with
  | some entity => .ok { entity, filters := filters as }
  | none => .error .missingArgument

def commandOf (name : CommandName) (as : Arguments) : Except UsageError Command :=
  match name with
  | .list => do return .list (← searchArguments as) (terms as)
  | .page => do
      return .page (← searchArguments as) (terms as) ((number? .page as).getD defaultPage)
        (number? .limit as)
  | .count => do return .count (← searchArguments as)
  | .entities => .ok .entities

/-! ## Lines -/

def withoutCommand (s : Settled) : UsageError :=
  if s.given.isEmpty && s.added.isEmpty then .nothingGiven else .missingCommand

/-- The invocation of the words after the program's name.  The level of the command is
read to its end before the rest of the level above.  What was given after the command
counts before what was given in front of it, and the environment comes last. -/
def parse (env : Environment) (words : List String) : Except UsageError Invocation := do
  let (g, found) ← scan .root .none words
  match found with
  | none => do
      let outer ← close .root env g
      throw (withoutCommand outer)
  | some (name, rest) => do
      let (inner, _) ← scan (.command name) .none rest
      let inner ← close (.command name) env inner
      let command ← commandOf name inner.given
      let outer ← close .root env g
      return { overrides := overridesOf (inner.given ++ outer.given ++ inner.added), command }

end Invocation
end TableSearch
