/-
Filter operators and their tokens.
-/

namespace TableSearch

inductive Operator where
  | eq
  | notEq
  | gt
  | gte
  | lt
  | lte
  | like
  | null
  | notNull
  | isIn
deriving DecidableEq, Repr

namespace Operator

def all : List Operator :=
  [.eq, .notEq, .gt, .gte, .lt, .lte, .like, .null, .notNull, .isIn]

def token : Operator → String
  | .eq => "EQ"
  | .notEq => "NOTEQ"
  | .gt => "GT"
  | .gte => "GTE"
  | .lt => "LT"
  | .lte => "LTE"
  | .like => "LIKE"
  | .null => "NULL"
  | .notNull => "NOTNULL"
  | .isIn => "IN"

def ofToken? (token : String) : Option Operator :=
  all.find? fun op => op.token == token

/-- The operators that need a value of the column's order. -/
def isOrdering : Operator → Bool
  | .gt => true
  | .gte => true
  | .lt => true
  | .lte => true
  | _ => false

theorem ofToken?_token (op : Operator) : ofToken? op.token = some op := by
  cases op <;> rfl

theorem token_of_ofToken? {t : String} {op : Operator} (h : ofToken? t = some op) :
    op.token = t := by
  have := List.find?_some h
  simpa using this

theorem token_injective {a b : Operator} (h : a.token = b.token) : a = b := by
  have hb := ofToken?_token b
  rw [← h, ofToken?_token a] at hb
  exact Option.some.inj hb

end Operator
end TableSearch
