/-
Predicates over the rows of an entity.
-/
import TableSearch.Schema.Path
import TableSearch.Text.Pattern

namespace TableSearch

inductive Comparison where
  | eq
  | notEq
  | gt
  | gte
  | lt
  | lte
deriving DecidableEq, Repr

def Comparison.sql : Comparison → String
  | .eq => "="
  | .notEq => "<>"
  | .gt => ">"
  | .gte => ">="
  | .lt => "<"
  | .lte => "<="

/-- A condition on attributes, independent of the backend. -/
inductive Predicate where
  /-- All of them hold; of nothing, every row. -/
  | and (parts : List Predicate)
  | compare (path : AttributePath) (op : Comparison) (value : Value)
  /-- The text of the attribute matches a pattern with this escape character. -/
  | like (path : AttributePath) (pattern : String) (escape : Char)
  | isNull (path : AttributePath)
  | isNotNull (path : AttributePath)
  | isIn (path : AttributePath) (values : List Value)

namespace Predicate

def matchAll : Predicate :=
  .and []

/-- The conjunction of a list; a single predicate stands for itself. -/
def all : List Predicate → Predicate
  | [p] => p
  | parts => .and parts

def matchesAll : Predicate → Bool
  | .and [] => true
  | _ => false

mutual

/-- The paths of a predicate, depth first. -/
def paths : Predicate → List AttributePath
  | .and parts => pathsOf parts
  | .compare path _ _ => [path]
  | .like path _ _ => [path]
  | .isNull path => [path]
  | .isNotNull path => [path]
  | .isIn path _ => [path]

def pathsOf : List Predicate → List AttributePath
  | [] => []
  | p :: rest => p.paths ++ pathsOf rest

end

theorem all_single (p : Predicate) : all [p] = p := rfl

theorem matchesAll_iff {p : Predicate} : p.matchesAll = true ↔ p = matchAll := by
  constructor
  · intro h
    unfold matchesAll at h
    split at h
    · rfl
    · simp at h
  · intro h
    rw [h]
    rfl

end Predicate
end TableSearch
