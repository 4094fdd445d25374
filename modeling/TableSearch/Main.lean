/-
The command line program.

It reads what the run may need, and prints what the run gives.  A database file holds a
snapshot as JSON text.
-/
import TableSearch.CommandLine.Program
import TableSearch.Database.Snapshot

namespace TableSearch
namespace Main

/-- What stands at a path, if anything. -/
def look (path : String) : IO (Option FileNode) := do
  try
    let bytes ← IO.FS.readBinFile path
    match String.fromUTF8? bytes with
    | none => return some .binary
    | some content =>
        match Database.ofJson content with
        | .ok d => return some (.database d)
        | .error _ => return some (.text content)
  catch
    | .noFileOrDirectory .. => return none
    | _ => return some .directory

def addFile (t : FileTree) (path : String) : IO FileTree := do
  match ← look path with
  | some node => return t.add path node
  | none => return t

/-- The names of variables that a text may mention. -/
def mentioned (content : String) : List String :=
  (content.toList.splitBy fun a b => EnvFile.isKeyChar a && EnvFile.isKeyChar b).map
    String.ofList

def addVariable (env : Environment) (name : String) : IO Environment := do
  match ← IO.getEnv name with
  | some value => return env.set name value
  | none => return env

def parameterVariables : List String :=
  Parameter.everywhere.filterMap Parameter.envName?

/-- The files of the settings and the database that they name. -/
def settingsFiles (t : FileTree) (p : Places) (o : Overrides) : IO FileTree := do
  let overlay := match o.config with
    | some path => Location.expand p path
    | none => Location.join p.current configFileName
  let t ← ((Settings.profilePath? p).toList ++ [overlay]).foldlM addFile t
  match Settings.load t p o with
  | .error _ => return t
  | .ok (settings, _) =>
      match settings.url.map DatabaseSource.ofUrl with
      | some (.ok (.file path _)) =>
          match t.settled? p path with
          | some names => addFile t ("/" ++ Text.joined "/" names)
          | none => return t
      | _ => return t

def surroundings (words : List String) : IO Surroundings := do
  let current := (← IO.currentDir).toString
  let places : Places := { home := ← IO.getEnv "HOME", current }
  let directories := Surroundings.upwards (FileTree.names current)
  let files ← (directories.map fun d => "/" ++ Text.joined "/" (d ++ [envFileName])).foldlM
    addFile (FileTree.empty.add current .directory)
  let bare : Surroundings := { places, files, environment := Keyed.empty, words }
  let names := parameterVariables ++ (bare.envFile?.map mentioned).getD []
  let environment ← names.foldlM addVariable Keyed.empty
  let s := { bare with environment }
  match Invocation.parse s.fullEnvironment words with
  | .ok i => return { s with files := ← settingsFiles files places i.overrides }
  | .error _ => return s

end Main
end TableSearch

def main (words : List String) : IO UInt32 := do
  let outcome := TableSearch.Program.run (← TableSearch.Main.surroundings words)
  match outcome with
  | .printed text warnings =>
      for w in warnings do
        IO.eprintln ("WARN " ++ w.message)
      IO.print text
  | .failed e => IO.eprintln ("\nError: " ++ e.fullMessage ++ "\n")
  | .refused e => IO.eprintln ("error: " ++ e.message)
  return outcome.exitCode
