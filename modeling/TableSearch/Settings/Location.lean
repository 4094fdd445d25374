/-
Paths that users write, and the databases they name.

Joining is textual: nothing is normalised.
-/
import TableSearch.Text.Blank
import TableSearch.Text.Cut

namespace TableSearch

/-- The directories that a path may be relative to. -/
structure Places where
  home : Option String
  current : String
deriving DecidableEq, Repr

namespace Location

def isAbsolute (path : String) : Bool :=
  Text.startsWith "/" path

/-- Whether a separator is needed before another part. -/
def needsSeparator (path : String) : Bool :=
  match path.toList.getLast? with
  | some c => c != '/'
  | none => false

/-- A path below another one.  An absolute path stands for itself. -/
def join (base path : String) : String :=
  if isAbsolute path then path
  else base ++ (if needsSeparator base then "/" else "") ++ path

/-- The path with the home directory for a leading `~`. -/
def withHome (p : Places) (path : String) : String :=
  match p.home with
  | none => path
  | some home =>
      if path = "~" then home
      else
        match Text.dropStart? "~/" path with
        | some rest => join home rest
        | none => path

/-- A path as the user wrote it, made absolute. -/
def expand (p : Places) (path : String) : String :=
  join p.current (withHome p (Text.trim path))

def memory : String := ":memory:"

/-- A database location as the user wrote it: a location with scheme and a database in
memory stay as they are, and a path is made absolute. -/
def ofDatabase (p : Places) (url : String) : String :=
  let url := Text.trim url
  if Text.startsWith "sqlite:" url || url == memory then url
  else expand p url

end Location
end TableSearch
