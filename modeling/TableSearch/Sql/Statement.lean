/-
Statements over one table and its joins.

A statement refers to its tables by number: zero is the root, and the joins follow in
order.  It refers to its parameters by their places in the parameter list, from one on.
-/
import TableSearch.Predicate.Basic
import TableSearch.Sql.Backend

namespace TableSearch
namespace Sql

structure ColumnRef where
  table : Nat
  column : String
deriving DecidableEq, Repr

/-- A left join by equality of `references` in the joined table and `column` in a
table before it. -/
structure JoinClause where
  table : String
  references : String
  parent : Nat
  column : String
deriving DecidableEq, Repr

inductive Condition where
  | always
  | never
  | compare (ref : ColumnRef) (op : Comparison) (param : Nat)
  /-- A column, or its text, against a pattern. -/
  | like (ref : ColumnRef) (cast : Bool) (param : Nat) (escape : Char)
  | isNull (ref : ColumnRef)
  | isNotNull (ref : ColumnRef)
  | isIn (ref : ColumnRef) (params : List Nat)
  | and (parts : List Condition)

structure SortKey where
  ref : ColumnRef
  direction : Direction
  nulls : NullHandling
deriving DecidableEq, Repr

/-- The parameters of a row limit and of the number of rows before. -/
structure WindowParams where
  limit : Nat
  offset : Nat
deriving DecidableEq, Repr

inductive Result where
  /-- The columns of the root table. -/
  | rows
  /-- The number of rows. -/
  | count
deriving DecidableEq, Repr

structure Statement where
  result : Result
  table : String
  joins : List JoinClause
  condition : Option Condition
  order : List SortKey
  window : Option WindowParams
  params : List Value

/-- At most `limit` rows after the first `offset`. -/
structure Window where
  limit : UInt32
  offset : UInt64
deriving DecidableEq, Repr

/-- A sort term whose path was followed. -/
structure ResolvedTerm where
  path : AttributePath
  direction : Direction
  nulls : NullHandling
deriving DecidableEq, Repr

/-! ## Drafting

A draft holds the joins and the parameters that a statement has used so far.
-/

structure Draft where
  /-- The joins with the relation paths they stand for. -/
  joins : List (String × JoinClause)
  params : List Value

namespace Draft

def empty : Draft where
  joins := []
  params := []

/-- The number of the table that a relation path stands for.  The root stands for a path
without join. -/
def tableOf (d : Draft) : Option String → Nat
  | none => 0
  | some path =>
      match d.joins.findIdx? fun j => j.1 == path with
      | some i => i + 1
      | none => 0

/-- Add a join, unless there is one for its path. -/
def addJoin (d : Draft) (j : Join) : Draft :=
  if d.joins.any fun k => k.1 == j.path then d
  else
    { d with joins := d.joins ++ [(j.path,
        { table := j.table, references := j.references, parent := d.tableOf j.parent,
          column := j.column })] }

/-- The column of a path, after its joins. -/
def column (d : Draft) (path : AttributePath) : ColumnRef × Draft :=
  let d := path.joins.foldl addJoin d
  ({ table := d.tableOf path.owner, column := path.column }, d)

def bind (d : Draft) (v : Value) : Nat × Draft :=
  (d.params.length + 1, { d with params := d.params ++ [v] })

def bindAll (d : Draft) (vs : List Value) : List Nat × Draft :=
  (List.range' (d.params.length + 1) vs.length, { d with params := d.params ++ vs })

mutual

def condition (d : Draft) : Predicate → Condition × Draft
  | .and [] => (.always, d)
  | .and (p :: rest) =>
      let (parts, d) := conditions d (p :: rest)
      (.and parts, d)
  | .compare path op value =>
      let (ref, d) := d.column path
      let (param, d) := d.bind value
      (.compare ref op param, d)
  | .like path pattern escape =>
      let (ref, d) := d.column path
      let (param, d) := d.bind (.text pattern)
      (.like ref (path.type != .text) param escape, d)
  | .isNull path =>
      let (ref, d) := d.column path
      (.isNull ref, d)
  | .isNotNull path =>
      let (ref, d) := d.column path
      (.isNotNull ref, d)
  | .isIn path values =>
      let (ref, d) := d.column path
      if values.isEmpty then (.never, d)
      else
        let (params, d) := d.bindAll values
        (.isIn ref params, d)

def conditions (d : Draft) : List Predicate → List Condition × Draft
  | [] => ([], d)
  | p :: rest =>
      let (c, d) := condition d p
      let (cs, d) := conditions d rest
      (c :: cs, d)

end

/-- No condition for a predicate that matches every row. -/
def optionalCondition (d : Draft) (p : Predicate) : Option Condition × Draft :=
  if p.matchesAll then (none, d)
  else
    let (c, d) := d.condition p
    (some c, d)

def sortKeys (d : Draft) : List ResolvedTerm → List SortKey × Draft
  | [] => ([], d)
  | t :: rest =>
      let (ref, d) := d.column t.path
      let (keys, d) := d.sortKeys rest
      ({ ref, direction := t.direction, nulls := t.nulls } :: keys, d)

/-- The limit and the offset as the last parameters.  An offset beyond the signed
64-bit numbers is the largest of them. -/
def window (d : Draft) : Option Window → Option WindowParams × Draft
  | none => (none, d)
  | some w =>
      let (limit, d) := d.bind (.int (Int64.ofNat w.limit.toNat))
      let (offset, d) := d.bind (.int (Int64.ofNat (min w.offset.toNat (2 ^ 63 - 1))))
      (some { limit, offset }, d)

end Draft

/-! ## The two statements of a search -/

namespace Statement

/-- The rows that match a predicate, in order, within a window. -/
def select (table : String) (p : Predicate) (terms : List ResolvedTerm)
    (w : Option Window) : Statement :=
  let (condition, d) := Draft.empty.optionalCondition p
  let (order, d) := d.sortKeys terms
  let (window, d) := d.window w
  { result := .rows, table, joins := d.joins.map Prod.snd, condition, order, window,
    params := d.params }

def count (table : String) (p : Predicate) : Statement :=
  let (condition, d) := Draft.empty.optionalCondition p
  { result := .count, table, joins := d.joins.map Prod.snd, condition, order := [],
    window := none, params := d.params }

end Statement
end Sql
end TableSearch
