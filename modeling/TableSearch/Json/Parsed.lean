/-
JSON trees as they were read.

A text can be well formed and still hold values that nothing can take: numbers out of
range, strings with half of a surrogate pair, and containers that lie too deep.  Each
of them is read as an unusable value, so that a reader who does not want the value is not
bothered by it.
-/
import TableSearch.Double.Basic

namespace TableSearch
namespace Json

/-- A JSON tree as it was read.  An object keeps its entries in the order they were given,
with repeated keys, and with keys that hold half of a surrogate pair as none. -/
inductive Parsed where
  | null
  | bool (b : Bool)
  | int (n : Int)
  | float (x : Double)
  | string (s : String)
  | array (items : List Parsed)
  | object (entries : List (Option String × Parsed))
  | unusable
deriving Inhabited

namespace Parsed

mutual

def isUsable : Parsed → Bool
  | .array items => areUsable items
  | .object entries => entriesUsable entries
  | .unusable => false
  | _ => true

def areUsable : List Parsed → Bool
  | [] => true
  | item :: rest => item.isUsable && areUsable rest

def entriesUsable : List (Option String × Parsed) → Bool
  | [] => true
  | (key, value) :: rest => key.isSome && value.isUsable && entriesUsable rest

end

end Parsed
end Json
end TableSearch
