/-
The settings of a run.

They come from four layers: the defaults, the profile file in the home directory, one
more file, and the command line.  A later layer wins, field by field.
-/
import TableSearch.Search.Page
import TableSearch.Settings.ConfigFile
import TableSearch.Settings.FileTree

namespace TableSearch

structure Overrides where
  config : Option String
  backend : Option Backend
  databaseUrl : Option String
  maxConnections : Option UInt32
deriving DecidableEq, Repr

/-- Why there are no settings. -/
inductive SettingsError where
  | unreadable (path : String) (cause : FileTree.ReadFault)
  | malformed (path : String)
  | noFile (path : String)
  | blankUrl
  | noConnections
  | limitOutOfRange
  | invalidEntities (cause : QueryError)
  | noUrl
deriving DecidableEq, Repr

def configFileName : String := "cquery.json"

/-- The directory of the profile file in the home directory. -/
def profileDirectory : String := ".cquery"

namespace SettingsError

def message : SettingsError → String
  | .unreadable path _ => "Failed to read config file: " ++ path
  | .malformed path => "Failed to parse config file: " ++ path
  | .noFile path => "Config file not found: " ++ path
  | .blankUrl => "Configuration error: database.url must not be empty"
  | .noConnections => "Configuration error: database.max_connections must be greater than 0"
  | .limitOutOfRange =>
      "Configuration error: query.default_limit must be between 1 and " ++
        toString largestLimit
  | .invalidEntities _ => "Configuration error: invalid entities"
  | .noUrl =>
      "No database URL configured. Set --database-url, CQUERY_DATABASE_URL or " ++
        "database.url in " ++ configFileName

/-- The error in the query language behind this one. -/
def cause? : SettingsError → Option QueryError
  | .invalidEntities cause => some cause
  | _ => none

def details : SettingsError → List String
  | .unreadable _ cause => [cause.message]
  | .invalidEntities cause => [cause.message]
  | _ => []

end SettingsError

structure Settings where
  backend : Backend
  url : Option String
  maxConnections : UInt32
  defaultLimit : UInt32
  registry : Registry

namespace Settings

def defaultMaxConnections : UInt32 := 2

def inferBackend (url : String) : Backend :=
  if Text.startsWith "postgres://" url || Text.startsWith "postgresql://" url then .postgres
  else .sqlite

/-! ## Files -/

def readFile (t : FileTree) (p : Places) (path : String) : Except SettingsError ConfigFile :=
  match t.read p path with
  | .error cause => .error (.unreadable path cause)
  | .ok content =>
      match ConfigFile.ofJson content with
      | .ok c => .ok c
      | .error _ => .error (.malformed path)

def profilePath? (p : Places) : Option String :=
  p.home.map fun home => Location.join (Location.join home profileDirectory) configFileName

/-- The profile file, if there is one. -/
def profile (t : FileTree) (p : Places) : Except SettingsError (Option ConfigFile) :=
  match profilePath? p with
  | some path => if t.exists? p path then some <$> readFile t p path else .ok none
  | none => .ok none

/-- The path of the file over the profile: the one that was asked for, or the one in the
current directory, if it exists. -/
def overlayPath (t : FileTree) (p : Places) (o : Overrides) :
    Except SettingsError (Option String) :=
  match o.config with
  | some path =>
      let path := Location.expand p path
      if t.exists? p path then .ok (some path) else .error (.noFile path)
  | none => .ok (if t.exists? p configFileName then some configFileName else none)

/-- The file over the profile, if there is one. -/
def overlayFile (t : FileTree) (p : Places) (o : Overrides) :
    Except SettingsError (Option ConfigFile) := do
  match ← overlayPath t p o with
  | some path => some <$> readFile t p path
  | none => return none

/-! ## Layering -/

/-- The files over each other, the first lowest. -/
def mergeFiles (files : List ConfigFile) : ConfigFile :=
  files.foldl ConfigFile.overlay .blank

def fileWarnings (files : List ConfigFile) : List Warning :=
  files.flatMap ConfigFile.warnings

/-- The location before it is made absolute. -/
def effectiveUrl (o : Overrides) (c : ConfigFile) : Option String :=
  o.databaseUrl <|> c.database.bind DatabaseSection.url

def effectiveBackend (o : Overrides) (c : ConfigFile) : Backend :=
  (o.backend <|> c.database.bind DatabaseSection.backend <|>
    (effectiveUrl o c).map inferBackend).getD .sqlite

/-- The overrides over the merged files over the defaults. -/
def ofLayers (p : Places) (o : Overrides) (c : ConfigFile) : Settings × List Warning :=
  let backend := effectiveBackend o c
  let (registry, warnings) := Registry.load (c.entities.getD [])
  ({ backend
     url := match backend with
       | .sqlite => (effectiveUrl o c).map (Location.ofDatabase p)
       | .postgres => effectiveUrl o c
     maxConnections :=
       (o.maxConnections <|> c.database.bind DatabaseSection.maxConnections).getD
         defaultMaxConnections
     defaultLimit := (c.query.bind QuerySection.defaultLimit).getD TableSearch.defaultLimit
     registry }, warnings)

def validate (s : Settings) : Except SettingsError Unit :=
  if s.url.any Text.isBlank then .error .blankUrl
  else if s.maxConnections = 0 then .error .noConnections
  else if s.defaultLimit = 0 ∨ largestLimit < s.defaultLimit.toNat then
    .error .limitOutOfRange
  else s.registry.validate.mapError .invalidEntities

/-- The settings of a run, and the warnings on the way. -/
def load (t : FileTree) (p : Places) (o : Overrides) :
    Except SettingsError (Settings × List Warning) := do
  let lower ← profile t p
  let upper ← overlayFile t p o
  let files := lower.toList ++ upper.toList
  let (settings, warnings) := ofLayers p o (mergeFiles files)
  settings.validate
  return (settings, fileWarnings files ++ warnings)

def requireUrl (s : Settings) : Except SettingsError String :=
  match s.url with
  | some url => .ok url
  | none => .error .noUrl

end Settings
end TableSearch
