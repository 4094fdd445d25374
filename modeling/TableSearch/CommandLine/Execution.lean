/-
Commands carried out.
-/
import TableSearch.CommandLine.Invocation
import TableSearch.Settings.Connection

namespace TableSearch

/-- Why a command has no result. -/
inductive RunError where
  | settings (cause : SettingsError)
  | query (cause : QueryError)
  /-- The database could not be opened. -/
  | opening (backend : Backend) (url : String) (cause : DataError)
  /-- A search failed. -/
  | search (verb : String) (entity : String) (cause : DataError)
deriving DecidableEq, Repr

namespace RunError

def dataChain (e : DataError) : List String :=
  match e with
  | .query cause => [e.message, cause.message]
  | .driver .. => [e.message]

/-- The messages from the outermost to the innermost. -/
def chain : RunError → List String
  | .settings e => e.message :: e.details
  | .query e => [e.message]
  | .opening .sqlite url cause =>
      ("Failed to open SQLite database: " ++ url) :: dataChain cause
  | .opening .postgres _ cause => "Failed to connect to PostgreSQL" :: dataChain cause
  | .search verb entity cause =>
      ("Failed to " ++ verb ++ " '" ++ entity ++ "'") :: dataChain cause

def message (e : RunError) : String :=
  e.chain.headD ""

def fullMessage (e : RunError) : String :=
  Text.joined ": " e.chain

/-- The error in the query language behind a failed search. -/
def dataCause? : DataError → Option QueryError
  | .query cause => some cause
  | .driver .. => none

/-- The error in the query language behind this one. -/
def cause? : RunError → Option QueryError
  | .settings e => e.cause?
  | .query e => some e
  | .opening _ _ cause => dataCause? cause
  | .search _ _ cause => dataCause? cause

end RunError

namespace Command

/-- The repository of an entity, behind an open pool. -/
def repository (connect : Connector) (s : Settings) (entity : String) :
    Except RunError Repository := do
  let _ ← (s.registry.get entity).mapError .query
  let url ← s.requireUrl.mapError .settings
  let pool ← (connect s.backend url).mapError (.opening s.backend url)
  (Repository.make s.backend pool s.registry entity).mapError .query

def pageNode (page : Page Record) : Json.Node :=
  .object [("content", .array (page.content.map Record.toMergedNode)),
    ("page", .int page.page), ("limit", .int page.limit), ("total", .int page.total),
    ("total_pages", .int page.totalPages), ("has_next", .bool page.hasNext),
    ("has_previous", .bool page.hasPrevious)]

def execute (connect : Connector) (s : Settings) : Command → Except RunError Json.Node
  | .entities => .ok s.registry.toNode
  | .list search terms => do
      let r ← repository connect s search.entity
      let rows ← (r.sorted search.params ⟨terms⟩).mapError (.search "list" search.entity)
      return .array (rows.map Record.toMergedNode)
  | .page search terms number limit => do
      let request ← (PageRequest.make number (limit.getD s.defaultLimit)).mapError .query
      let r ← repository connect s search.entity
      let result ← (r.page search.params (request.withSort ⟨terms⟩)).mapError
        (.search "page" search.entity)
      return pageNode result
  | .count search => do
      let r ← repository connect s search.entity
      let n ← (r.count search.params).mapError (.search "count" search.entity)
      return .object [("entity", .string search.entity), ("count", .int n)]

end Command

/-- The result of an invocation, and the warnings of its settings. -/
def Invocation.execute (t : FileTree) (p : Places) (i : Invocation) :
    Except RunError (Json.Node × List Warning) := do
  let (settings, warnings) ← (Settings.load t p i.overrides).mapError .settings
  let result ← i.command.execute (Pool.connect t p) settings
  return (result, warnings)

end TableSearch
