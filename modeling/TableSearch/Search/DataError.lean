/-
Why a search fails: the query is wrong, or the driver of the backend gives up.
-/
import TableSearch.Database.Execution
import TableSearch.Sql.Printer

namespace TableSearch

/-- Why the driver of a backend gives up. -/
inductive DriverError where
  | poolTimedOut
  | poolClosed
  | io (text : String)
  | rowNotFound
  /-- A value that is no single parameter. -/
  | encode (kind : ValueKind)
  | unprepared (cause : Sql.Unprepared)
  | cannotOpen
  | notADatabase
  | badLocation (text : String)
deriving DecidableEq, Repr

namespace DriverError

def unpreparedText : Sql.Unprepared → String
  | .noTable name => "no such table: " ++ name
  | .noColumn ref => "no such column: " ++ Sql.aliasText ref.table ++ "." ++ ref.column
  | .tooManyTables => "at most 64 tables in a join"
  | .tooManyParameters => "too many SQL variables"
  | .tooDeep => "Expression tree is too large (maximum depth 1000)"
  | .patternTooLong => "LIKE or GLOB pattern too complex"

def message : DriverError → String
  | .poolTimedOut => "pool timed out while waiting for an open connection"
  | .poolClosed => "attempted to acquire a connection on a closed pool"
  | .io text => "error communicating with database: " ++ text
  | .rowNotFound =>
      "no rows returned by a query that expected to return at least one row"
  | .encode kind =>
      "error occurred while encoding a value: cannot bind a " ++ kind.name ++
        " as a single parameter"
  | .unprepared cause => "error returned from database: (code: 1) " ++ unpreparedText cause
  | .cannotOpen => "error returned from database: (code: 14) unable to open database file"
  | .notADatabase => "error returned from database: (code: 26) file is not a database"
  | .badLocation text => "error with configuration: " ++ text

def isTransient : DriverError → Bool
  | .poolTimedOut => true
  | .poolClosed => true
  | .io _ => true
  | _ => false

end DriverError

inductive DataError where
  /-- The query was refused, and nothing was sent to the database. -/
  | query (cause : QueryError)
  | driver (backend : Backend) (cause : DriverError)
deriving DecidableEq, Repr

namespace DataError

def message : DataError → String
  | .query cause => "Query error: " ++ cause.message
  | .driver backend cause => backend.title ++ " error: " ++ cause.message

def backendName : DataError → String
  | .query _ => "none"
  | .driver backend _ => backend.name

def isQueryError : DataError → Bool
  | .query _ => true
  | .driver .. => false

def isTransient : DataError → Bool
  | .query _ => false
  | .driver _ cause => cause.isTransient

end DataError
end TableSearch
