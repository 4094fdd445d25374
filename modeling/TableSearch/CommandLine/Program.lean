/-
The whole program, from its surroundings to what it prints.
-/
import TableSearch.CommandLine.Execution

namespace TableSearch

/-- What a run of the program sees. -/
structure Surroundings where
  places : Places
  files : FileTree
  environment : Environment
  /-- The words after the name of the program. -/
  words : List String

/-- How a run ends. -/
inductive Outcome where
  /-- With a result, help or the version. -/
  | printed (text : String) (warnings : List Warning)
  | failed (e : RunError)
  | refused (e : UsageError)

namespace Surroundings

def upwards : List String → List (List String)
  | [] => [[]]
  | name :: rest => (upwards rest).map (name :: ·) ++ [[]]

/-- The nearest file with variables, at the current directory or above. -/
def envFile? (s : Surroundings) : Option String :=
  (upwards (FileTree.names s.places.current)).findSome? fun directory =>
    match s.files.node? (directory ++ [envFileName]) with
    | some (.text content) => some content
    | _ => none

/-- The environment with the variables of the file. -/
def fullEnvironment (s : Surroundings) : Environment :=
  match s.envFile? with
  | some content => EnvFile.load s.environment content
  | none => s.environment

end Surroundings

namespace Program

def name : String := "cquery"

def version : String := "0.1.0"

def help : String :=
  "Search relational tables with encoded-key filters\n\nUsage: " ++ name ++
    " [OPTIONS] <COMMAND>\n\nCommands:\n" ++
    "  list      Print every matching row\n" ++
    "  page      Print one page of matching rows with totals\n" ++
    "  count     Print the number of matching rows\n" ++
    "  entities  Print the registered entity schemas\n"

def run (s : Surroundings) : Outcome :=
  match Invocation.parse s.fullEnvironment s.words with
  | .error .helpWanted => .printed help []
  | .error .versionWanted => .printed (name ++ " " ++ version ++ "\n") []
  | .error e => .refused e
  | .ok i =>
      match i.execute s.files s.places with
      | .ok (result, warnings) => .printed (result.indented ++ "\n") warnings
      | .error e => .failed e

end Program

namespace Outcome

def exitCode : Outcome → UInt32
  | .printed .. => 0
  | .failed _ => 1
  | .refused _ => 2

end Outcome
end TableSearch
