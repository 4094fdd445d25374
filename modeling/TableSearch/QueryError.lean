/-
Why a search is refused before anything reaches a database.
-/
import TableSearch.Schema.Column

namespace TableSearch

/-- Why a path leads to no column, at the segment where it breaks. -/
inductive PathFault where
  /-- The whole path is blank. -/
  | blankPath
  /-- The path has no segments. -/
  | emptyPath
  | blankSegment
  | noAttribute (entity : String)
  | columnInside (name entity : String)
  | unregisteredTarget (target : String)
  | undeclaredColumn (target column : String)
deriving DecidableEq, Repr

def PathFault.message : PathFault → String
  | .blankPath => "attribute path is blank"
  | .emptyPath => "empty attribute path"
  | .blankSegment => "empty path segment"
  | .noAttribute entity => "no such attribute on '" ++ entity ++ "'"
  | .columnInside name entity =>
      "'" ++ name ++ "' is a column of '" ++ entity ++ "', not a relation"
  | .unregisteredTarget target => "relation target '" ++ target ++ "' is not registered"
  | .undeclaredColumn target column =>
      "referenced column '" ++ target ++ "." ++ column ++ "' is not declared"

/-- Why a value is no operand of a list test. -/
inductive ListFault where
  | scalar (kind : ValueKind)
  /-- An item is a list itself. -/
  | nested
deriving DecidableEq, Repr

def ListFault.found : ListFault → String
  | .scalar kind => kind.name
  | .nested => "nested list"

inductive SchemaFault where
  | blankTable (entity : String)
  | unknownTarget (entity relation target : String)
  | unknownColumn (entity relation target column : String)
deriving DecidableEq, Repr

def SchemaFault.message : SchemaFault → String
  | .blankTable entity => "entity '" ++ entity ++ "' has no table"
  | .unknownTarget entity relation target =>
      "relation '" ++ entity ++ "." ++ relation ++ "' targets unknown entity '" ++ target ++ "'"
  | .unknownColumn entity relation target column =>
      "relation '" ++ entity ++ "." ++ relation ++ "' references unknown column '" ++
        target ++ "." ++ column ++ "'"

inductive PageFault where
  | page
  | limit (largest : Nat)
deriving DecidableEq, Repr

def PageFault.message : PageFault → String
  | .page => "page must be at least 1"
  | .limit largest => "limit must be between 1 and " ++ toString largest

inductive QueryError where
  | malformedKey (key : String)
  | unknownOperator (token key : String)
  | invalidPath (path segment : String) (fault : PathFault)
  | notComparable (path : String) (kind : ValueKind) (type : ColumnType)
  | invalidList (path : String) (fault : ListFault)
  | invalidPattern (path : String) (kind : ValueKind) (type : ColumnType)
  | unknownEntity (name : String)
  | invalidSchema (fault : SchemaFault)
  | invalidPage (fault : PageFault)
deriving DecidableEq, Repr

def QueryError.message : QueryError → String
  | .malformedKey key => "Malformed filter key: " ++ key
  | .unknownOperator token key =>
      "Unknown operator '" ++ token ++ "' in filter key: " ++ key
  | .invalidPath path segment fault =>
      "Invalid attribute path '" ++ path ++ "' at segment '" ++ segment ++ "': " ++
        fault.message
  | .notComparable path kind type =>
      "Non-comparable value for '" ++ path ++ "': " ++ kind.name ++
        " cannot be ordered against a " ++ type.name ++ " column"
  | .invalidList path fault =>
      "Invalid IN operand for '" ++ path ++ "': expected a list, got " ++ fault.found
  | .invalidPattern path kind type =>
      "Invalid LIKE operand for '" ++ path ++ "': " ++ kind.name ++
        " cannot be matched against a " ++ type.name ++ " column"
  | .unknownEntity name => "Unknown entity: " ++ name
  | .invalidSchema fault => "Invalid schema: " ++ fault.message
  | .invalidPage fault => "Invalid page request: " ++ fault.message

end TableSearch
