/-
Files named by URIs.

The scheme `file:` comes first, then perhaps an authority, which must be this machine, and
a path.  Options after a question mark may change how the file is opened.  A number sign
ends the URI, and a zero byte ends the part it stands in.
-/
import TableSearch.Settings.Location
import TableSearch.Text.Percent

namespace TableSearch

/-- What may be done with a file, each including those before. -/
inductive Rights where
  | none
  | read
  | write
  | create
deriving DecidableEq, Repr

def Rights.rank : Rights → Nat
  | .none => 0
  | .read => 1
  | .write => 2
  | .create => 3

/-- How a database is opened. -/
structure Access where
  rights : Rights
  /-- Whether the database is in memory, whatever its name. -/
  inMemory : Bool
deriving DecidableEq, Repr

namespace Access

def modes : List (String × Access) :=
  [("ro", { rights := .read, inMemory := false }),
    ("rw", { rights := .write, inMemory := false }),
    ("rwc", { rights := .create, inMemory := false }),
    ("memory", { rights := .none, inMemory := true })]

/-- Whether one access may be exchanged for another.  In memory everything may be done. -/
def permits (a b : Access) : Bool :=
  a.inMemory || b.rights.rank ≤ a.rights.rank

end Access

/-- A database file to be opened. -/
structure FileRequest where
  path : String
  access : Access
  /-- The file system, if one is named. -/
  fileSystem : Option String
deriving DecidableEq, Repr

namespace FileUri

def scheme : String := "file:"

/-- The part up to the first of some characters, and what begins with it. -/
def cutAt (stops : List Char) (cs : List Char) : List Char × List Char :=
  (cs.takeWhile fun c => !stops.contains c, cs.dropWhile fun c => !stops.contains c)

/-- The text of a part, up to a zero byte. -/
def partText (cs : List Char) : String :=
  String.ofList (Utf8.decode ((Percent.bytes cs).takeWhile (· != 0)))

/-- What follows the authority; nothing when it is another machine. -/
def afterAuthority? : List Char → Option (List Char)
  | '/' :: '/' :: rest =>
      let (authority, path) := cutAt ['/'] rest
      if authority = [] ∨ authority = "localhost".toList then some path else none
  | cs => some cs

/-- The name and the value of an option; an option without a value has an empty one. -/
def option (part : List Char) : String × String :=
  let (name, value) := cutAt ['='] part
  (partText name, partText (value.drop 1))

/-- The options, without those that have no name. -/
def options (cs : List Char) : List (String × String) :=
  ((Text.pieceChars '&' cs).map option).filter fun o => o.1 != ""

/-- The values of the option that says how a file is shared. -/
def sharing : List String := ["shared", "private"]

/-- A request changed by an option; nothing for a value that is not known or not
permitted.  Options of other names change nothing. -/
def withOption? (r : FileRequest) (o : String × String) : Option FileRequest :=
  match o.1 with
  | "vfs" => some { r with fileSystem := some o.2 }
  | "cache" => if sharing.contains o.2 then some r else none
  | "mode" => do
      let (_, access) ← Access.modes.find? fun m => m.1 == o.2
      if r.access.permits access then some { r with access } else none
  | _ => some r

/-- The request of a URI, where `access` is what was asked for. -/
def request? (access : Access) (uri : List Char) : Option FileRequest := do
  let cs ← afterAuthority? (uri.takeWhile fun c => c != '#')
  let (path, rest) := cutAt ['?'] cs
  let r : FileRequest := { path := partText path, access, fileSystem := none }
  (options (rest.drop 1)).foldlM withOption? r

/-- The request of a name, which may be a URI. -/
def ofName? (access : Access) (name : String) : Option FileRequest :=
  match Text.dropStart? scheme name with
  | some rest => request? access rest.toList
  | none => some { path := name, access, fileSystem := none }

end FileUri
end TableSearch
