/-
Column types, and the values that each type can be compared with.
-/
import TableSearch.Value

namespace TableSearch

inductive ColumnType where
  | integer
  | real
  | text
  | boolean
deriving DecidableEq, Repr

namespace ColumnType

def name : ColumnType → String
  | .integer => "integer"
  | .real => "real"
  | .text => "text"
  | .boolean => "boolean"

def words : List (String × ColumnType) :=
  [("integer", .integer), ("real", .real), ("text", .text), ("boolean", .boolean)]

/-- Whether a value can be ordered against a column of this type. -/
def orders : ColumnType → Value → Bool
  | .integer, .int _ => true
  | .integer, .float _ => true
  | .real, .int _ => true
  | .real, .float _ => true
  | .text, .text _ => true
  | .boolean, .bool _ => true
  | _, _ => false

/-- Whether a value can be searched for in the text of a column of this type.  Engines
write booleans and real numbers in different ways, so a boolean column takes nothing
and a real column takes text only. -/
def matchesText : ColumnType → Value → Bool
  | .text, .null => false
  | .text, .list _ => false
  | .text, _ => true
  | .integer, .null => false
  | .integer, .list _ => false
  | .integer, _ => true
  | .real, .text _ => true
  | .real, _ => false
  | .boolean, _ => false

end ColumnType
end TableSearch
