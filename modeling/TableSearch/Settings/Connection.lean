/-
Connections to the database of the settings.

A location of a database file may begin with a scheme and end in parameters after a
question mark.  The name between them may be a URI again.
-/
import TableSearch.Search.Repository
import TableSearch.Settings.FileUri
import TableSearch.Settings.Layers

namespace TableSearch

/-- Where a database is. -/
inductive DatabaseSource where
  /-- A new database that nobody else sees. -/
  | fresh
  /-- A file, which may be created or not. -/
  | file (path : String) (create : Bool)
deriving DecidableEq, Repr

namespace DatabaseSource

/-- A text without all repetitions of `start` at its beginning. -/
def withoutStarts (start : String) (s : String) : String :=
  String.ofList (go start.toList.length s.toList)
where
  go (size : Nat) (cs : List Char) : List Char :=
    if _h : 0 < size ∧ size ≤ cs.length ∧ start.toList = cs.take size then
      go size (cs.drop size)
    else cs
  termination_by cs.length
  decreasing_by
    rw [List.length_drop]
    omega

/-! ## Parameters -/

/-- The values that a parameter of a location may have. -/
def allowed? (name : String) : Option (List String) :=
  match name with
  | "mode" => some ["ro", "rw", "rwc", "memory"]
  | "cache" => some ["private", "shared"]
  | "immutable" => some ["true", "1", "false", "0"]
  | _ => none

/-- A parameter must be known and have a value that it may have. -/
def checkField (f : String × String) : Except DriverError Unit :=
  if f.1 = "vfs" then .ok ()
  else
    match allowed? f.1 with
    | none =>
        .error (.badLocation ("unknown query parameter " ++ Sql.quoteIdentifier f.1 ++
          " while parsing connection URL"))
    | some values =>
        if values.contains f.2 then .ok ()
        else .error (.badLocation ("unknown value " ++ Sql.quoteIdentifier f.2 ++ " for " ++
          Sql.quoteIdentifier f.1))

def lastValue? (fields : List (String × String)) (name : String) : Option String :=
  (fields.reverse.find? fun f => f.1 == name).map Prod.snd

def memoryName : String := FileUri.scheme ++ "in-memory"

/-- The name of a database as written before the parameters. -/
def nameOf? (encoded : String) : Option String :=
  if encoded = Location.memory then some memoryName else Percent.decode? encoded

/-- How a name and parameters have a database opened.  A file is not created. -/
def accessOf (encoded : String) (fields : List (String × String)) : Access where
  rights := if fields.contains ("mode", "ro") then .read else .write
  inMemory := encoded == Location.memory || fields.contains ("mode", "memory")

def forwarded (fields : List (String × String)) : List String :=
  (match lastValue? fields "immutable" with
    | some value => if value = "true" ∨ value = "1" then ["immutable=true"] else []
    | none => []) ++
  (match lastValue? fields "vfs" with
    | some value => ["vfs=" ++ value]
    | none => [])

/-- The name with the options that go on to the file. -/
def fullName (name : String) (fields : List (String × String)) : String :=
  match forwarded fields with
  | [] => name
  | options => FileUri.scheme ++ Percent.encode name ++ "?" ++ Text.joined "&" options

/-! ## Sources -/

def fileSystems : List String := ["unix", "unix-none", "unix-dotfile", "unix-excl"]

def memorySystem : String := "memdb"

/-- The source of a request; nothing when its file system is not known. -/
def ofRequest? (r : FileRequest) : Option DatabaseSource :=
  if r.fileSystem.all fun s => (memorySystem :: fileSystems).contains s then
    if r.access.inMemory || r.path == "" || r.path == Location.memory ||
        r.fileSystem == some memorySystem then
      some .fresh
    else some (.file r.path (r.access.rights == .create))
  else none

def ofUrl (url : String) : Except DriverError DatabaseSource := do
  let rest := withoutStarts "sqlite:" (withoutStarts "sqlite://" url)
  let (encoded, fields) := match Text.cutFirst '?' rest with
    | some (encoded, form) => (encoded, Percent.formFields form)
    | none => (rest, [])
  let name ← match nameOf? encoded with
    | some name => pure name
    | none => throw (.badLocation "invalid utf-8 sequence")
  fields.forM checkField
  let full := fullName name fields
  if full.toList.any (· == Char.ofNat 0) then
    throw (.badLocation "filename must not contain nul bytes")
  match (FileUri.ofName? (accessOf encoded fields) full).bind ofRequest? with
  | some source => return source
  | none => throw .cannotOpen

def connect (t : FileTree) (p : Places) : DatabaseSource → Except DriverError Pool
  | .fresh => .ok (.serving Meaning.sqlite .empty)
  | .file path create =>
      match t.settled? p path with
      | none => .error .cannotOpen
      | some names =>
          match t.node? names with
          | some (.database d) => .ok (.serving Meaning.sqlite d)
          | some (.text content) =>
              .ok (if content.isEmpty then .serving Meaning.sqlite .empty
                else .failing .notADatabase)
          | some .binary => .ok (.failing .notADatabase)
          | some .directory => .error .cannotOpen
          | none =>
              if create && t.isDirectory names.dropLast then
                .ok (.serving Meaning.sqlite .empty)
              else .error .cannotOpen

end DatabaseSource

/-- How pools are opened: at a location, for a backend. -/
abbrev Connector : Type := Backend → String → Except DataError Pool

def noServer : DriverError := .io "Connection refused (os error 111)"

/-- Open a pool.  There is no server to connect to, so only database files can be
opened. -/
def Pool.connect (t : FileTree) (p : Places) : Connector
  | .postgres, _ => .error (.driver .postgres noServer)
  | .sqlite, url =>
      (DatabaseSource.ofUrl url >>= DatabaseSource.connect t p).mapError (.driver .sqlite)

end TableSearch
