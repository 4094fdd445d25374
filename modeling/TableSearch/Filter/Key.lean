/-
Filters and the keys that write them.

A key is an operator token, an underscore and an attribute path.  The path may hold
more underscores.
-/
import TableSearch.QueryError
import TableSearch.Filter.Operator
import TableSearch.Text.Blank
import TableSearch.Text.Cut

namespace TableSearch

/-- A test of one attribute. -/
structure Filter where
  path : String
  operator : Operator
  value : Value

namespace Filter

/-- Between the operator token and the path of a key. -/
def keySeparator : Char := '_'

def segmentSeparator : Char := '.'

def make (path : String) (operator : Operator) (value : Value) : Except QueryError Filter :=
  if Text.isBlank path then .error (.invalidPath path path .blankPath)
  else .ok { path, operator, value }

/-- The segments of the path, relations first. -/
def segments (f : Filter) : List String :=
  Text.pieces segmentSeparator f.path

/-- The key that stands for an operator and a path. -/
def key (operator : Operator) (path : String) : String :=
  operator.token ++ "_" ++ path

def parseKey (key : String) : Except QueryError (Operator × String) :=
  match Text.cutFirst keySeparator key with
  | none => .error (.malformedKey key)
  | some (token, path) =>
      if Text.isBlank token || Text.isBlank path then .error (.malformedKey key)
      else
        match Operator.ofToken? token with
        | none => .error (.unknownOperator token key)
        | some operator => .ok (operator, path)

def parse (entry : String × Value) : Except QueryError Filter := do
  let (operator, path) ← parseKey entry.1
  make path operator entry.2

/-- One filter per entry, in order; the first entry at fault decides the error. -/
def parseAll (entries : List (String × Value)) : Except QueryError (List Filter) :=
  entries.mapM parse

end Filter

/-- Values by filter key. -/
abbrev SearchParams : Type := Dict Value

end TableSearch
