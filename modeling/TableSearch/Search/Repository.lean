/-
Searches for the rows of one entity.

Every operation first makes its plan, then looks at the parameters, and only then asks
the pool for a connection.
-/
import TableSearch.Search.DataError
import TableSearch.Search.Page
import TableSearch.Search.Plan
import TableSearch.Search.Record

namespace TableSearch

/-- The connections to a database. -/
inductive Pool where
  /-- Every statement fails. -/
  | failing (cause : DriverError)
  | serving (m : Meaning) (d : Database)

namespace Pool

def closed : Pool :=
  .failing .poolClosed

/-- No connection comes in time. -/
def unreachable : Pool :=
  .failing .poolTimedOut

end Pool

structure Repository where
  backend : Backend
  pool : Pool
  registry : Registry
  entity : String

namespace Repository

def make (backend : Backend) (pool : Pool) (registry : Registry) (entity : String) :
    Except QueryError Repository := do
  let _ ← registry.get entity
  return { backend, pool, registry, entity }

def plan (r : Repository) (params : SearchParams) (sort : SortOrder) :
    Except DataError Plan :=
  (Plan.make r.registry r.entity params sort).mapError .query

def bind (params : List Value) : Except DriverError Unit :=
  match params.find? Value.isList with
  | some v => .error (.encode v.kind)
  | none => .ok ()

def run {α : Type} (pool : Pool) (s : Sql.Statement)
    (answer : Meaning → Database → Sql.Statement → Except Sql.Unprepared α) :
    Except DriverError α := do
  bind s.params
  match pool with
  | .failing cause => .error cause
  | .serving m d => (answer m d s).mapError .unprepared

def fetch (r : Repository) (s : Sql.Statement) : Except DataError (List Record) := do
  let (columns, rows) ← (run r.pool s Sql.Statement.rows).mapError (DataError.driver r.backend)
  return rows.map (Record.ofCells columns)

def fetchTotal (r : Repository) (s : Sql.Statement) : Except DataError Nat :=
  (run r.pool s Sql.Statement.total).mapError (DataError.driver r.backend)

def sorted (r : Repository) (params : SearchParams) (sort : SortOrder) :
    Except DataError (List Record) := do
  let p ← r.plan params sort
  r.fetch (p.select none)

def query (r : Repository) (params : SearchParams) : Except DataError (List Record) :=
  r.sorted params .unsorted

def count (r : Repository) (params : SearchParams) : Except DataError Nat := do
  let p ← r.plan params .unsorted
  r.fetchTotal p.count

def window (request : PageRequest) : Sql.Window where
  limit := request.limit
  offset := UInt64.ofNat request.offset

/-- One page of the matching rows.  The rows are counted only when the page does not tell
their number. -/
def page (r : Repository) (params : SearchParams) (request : PageRequest) :
    Except DataError (Page Record) := do
  let p ← r.plan params request.sort
  let content ← r.fetch (p.select (some (window request)))
  let total ← match request.knownTotal? content.length with
    | some total => pure total
    | none => r.fetchTotal p.count
  return Page.make content request total

end Repository
end TableSearch
