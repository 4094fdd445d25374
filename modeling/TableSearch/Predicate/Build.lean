/-
Predicates from filters.

A filter's path is resolved before its value is checked.  An equality with null is a
test for null; other equalities take every value.
-/
import TableSearch.Predicate.Basic

namespace TableSearch
namespace Predicate

/-- The escape character of the patterns that filters make. -/
def likeEscape : Char := '/'

/-- A comparison by order, for a value of the column's order. -/
def ordering (path : AttributePath) (op : Comparison) (value : Value) :
    Except QueryError Predicate :=
  if path.type.orders value then .ok (.compare path op value)
  else .error (.notComparable path.path value.kind path.type)

/-- A search for a text inside the text of the column. -/
def containing (path : AttributePath) (value : Value) : Except QueryError Predicate :=
  match value.patternText? with
  | some text =>
      if path.type.matchesText value then
        .ok (.like path (Text.containsPattern likeEscape text) likeEscape)
      else .error (.invalidPattern path.path value.kind path.type)
  | none => .error (.invalidPattern path.path value.kind path.type)

/-- A test against a list of values that are no lists. -/
def membership (path : AttributePath) : Value → Except QueryError Predicate
  | .list items =>
      if items.any Value.isList then .error (.invalidList path.path .nested)
      else .ok (.isIn path items)
  | value => .error (.invalidList path.path (.scalar value.kind))

/-- The predicate of an operator and a value on a resolved path. -/
def ofOperator (path : AttributePath) (operator : Operator) (value : Value) :
    Except QueryError Predicate :=
  match operator with
  | .eq => .ok (if value.isNull then .isNull path else .compare path .eq value)
  | .notEq => .ok (if value.isNull then .isNotNull path else .compare path .notEq value)
  | .gt => ordering path .gt value
  | .gte => ordering path .gte value
  | .lt => ordering path .lt value
  | .lte => ordering path .lte value
  | .like => containing path value
  | .null => .ok (.isNull path)
  | .notNull => .ok (.isNotNull path)
  | .isIn => membership path value

def ofFilter (r : Registry) (root : Entity) (f : Filter) : Except QueryError Predicate := do
  let path ← AttributePath.resolve r root f.path
  ofOperator path f.operator f.value

/-- All filters hold.  The first filter at fault decides the error. -/
def ofFilters (r : Registry) (root : Entity) (fs : List Filter) :
    Except QueryError Predicate := do
  let parts ← fs.mapM (ofFilter r root)
  return all parts

end Predicate
end TableSearch
