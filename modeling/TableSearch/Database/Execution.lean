/-
Statements run on a database.

A statement makes tuples: a row of the root table, and for each join a row of the joined
table, or none where no row agrees.  The tuples that satisfy the condition are ordered
and cut to the window.
-/
import TableSearch.Database.Meaning
import TableSearch.Database.Table
import TableSearch.Sql.Statement

namespace TableSearch
namespace Sql

/-- The rows that belong together, in the order of the statement's tables. -/
abbrev Tuple : Type := List (Option Row)

/-- Why a statement cannot be run on a database. -/
inductive Unprepared where
  | noTable (name : String)
  | noColumn (ref : ColumnRef)
  | tooManyTables
  | tooManyParameters
  | tooDeep
  /-- A pattern is too long to be searched for. -/
  | patternTooLong
deriving DecidableEq, Repr

/-! ## Preparation -/

namespace Condition

mutual

/-- The columns of a condition, left to right. -/
def refs : Condition → List ColumnRef
  | .always => []
  | .never => []
  | .compare ref _ _ => [ref]
  | .like ref _ _ _ => [ref]
  | .isNull ref => [ref]
  | .isNotNull ref => [ref]
  | .isIn ref _ => [ref]
  | .and parts => refsOf parts

def refsOf : List Condition → List ColumnRef
  | [] => []
  | c :: rest => c.refs ++ refsOf rest

end

mutual

/-- How deep the parts of a condition lie in each other.  A conjunction of many parts
lies as deep as there are parts. -/
def depth : Condition → Nat
  | .like _ cast _ _ => if cast then 3 else 2
  | .and (first :: rest) => depthOf first.depth rest
  | _ => 2

/-- The depth of a conjunction whose first parts have depth `n`. -/
def depthOf (n : Nat) : List Condition → Nat
  | [] => n
  | c :: rest => depthOf (max n c.depth + 1) rest

end

end Condition

namespace Statement

/-- The columns of the joins, where the first has table number `n`. -/
def joinRefs (n : Nat) : List JoinClause → List ColumnRef
  | [] => []
  | j :: rest =>
      { table := n, column := j.references } :: { table := j.parent, column := j.column } ::
        joinRefs (n + 1) rest

def refs (s : Statement) : List ColumnRef :=
  joinRefs 1 s.joins ++ (match s.condition with | some c => c.refs | none => []) ++
    s.order.map SortKey.ref

def lookupTable (d : Database) (name : String) : Except Unprepared Table :=
  match d.table? name with
  | some t => .ok t
  | none => .error (.noTable name)

def checkRef (tables : List Table) (r : ColumnRef) : Except Unprepared Unit :=
  match tables[r.table]? with
  | some t => if (t.slot? r.column).isSome then .ok () else .error (.noColumn r)
  | none => .error (.noColumn r)

def checkLimits (l : Limits) (s : Statement) : Except Unprepared Unit :=
  if l.tables < s.joins.length + 1 then .error .tooManyTables
  else if l.parameters < s.params.length then .error .tooManyParameters
  else if s.condition.any fun c => l.depth < c.depth then .error .tooDeep
  else .ok ()

/-- The root table and the joined ones.  The statement must be small enough, and then every
table and every column must be there. -/
def tables (m : Meaning) (s : Statement) (d : Database) :
    Except Unprepared (Table × List Table) := do
  s.checkLimits m.limits
  let root ← lookupTable d s.table
  let joined ← s.joins.mapM fun j => lookupTable d j.table
  s.refs.forM (checkRef (root :: joined))
  return (root, joined)

end Statement

/-! ## Tuples -/

/-- The cell of a tuple in one of its tables; missing where the join found no row. -/
def ColumnRef.cell (tables : List Table) (tuple : Tuple) (r : ColumnRef) : Cell :=
  match tables[r.table]?, tuple[r.table]? with
  | some t, some (some row) => t.cell r.column row
  | _, _ => .null

def ColumnRef.traits (tables : List Table) (r : ColumnRef) : Traits :=
  match tables[r.table]? with
  | some t => t.traits r.column
  | none => Table.rowNumberTraits

def ColumnRef.operand (tables : List Table) (tuple : Tuple) (r : ColumnRef) : Operand where
  cell := r.cell tables tuple
  traits := r.traits tables

/-- The rows of a joined table that agree with a tuple. -/
def JoinClause.partners (m : Meaning) (tables : List Table) (tuple : Tuple) (t : Table)
    (j : JoinClause) : List Row :=
  let wanted := ColumnRef.operand tables tuple { table := j.parent, column := j.column }
  let traits := t.traits j.references
  t.rows.filter fun row => m.equal { cell := t.cell j.references row, traits } wanted == .yes

/-- A tuple with each of the rows, or with none when there are no rows. -/
def Tuple.extend (tuple : Tuple) : List Row → List Tuple
  | [] => [tuple ++ [none]]
  | row :: rest => (row :: rest).map fun r => tuple ++ [some r]

def joinStep (m : Meaning) (tables : List Table) (tuples : List Tuple)
    (step : JoinClause × Table) : List Tuple :=
  tuples.flatMap fun tuple => Tuple.extend tuple (step.1.partners m tables tuple step.2)

namespace Condition

/-- The value of a parameter, counted from one. -/
def argument (params : List Value) (n : Nat) : Value :=
  params.getD (n - 1) .null

mutual

def holds (m : Meaning) (params : List Value) (operand : ColumnRef → Operand) :
    Condition → Truth
  | .always => .yes
  | .never => .no
  | .compare ref op param => m.compare op (operand ref) (argument params param)
  | .like ref cast param escape =>
      m.like cast escape (operand ref).cell (argument params param)
  | .isNull ref => .ofBool (operand ref).cell.isNull
  | .isNotNull ref => .ofBool (!(operand ref).cell.isNull)
  | .isIn ref places =>
      let x := operand ref
      Truth.any (places.map fun param => m.compare .eq x (argument params param))
  | .and parts => holdsAll m params operand parts

def holdsAll (m : Meaning) (params : List Value) (operand : ColumnRef → Operand) :
    List Condition → Truth
  | [] => .yes
  | c :: rest => (holds m params operand c).and (holdsAll m params operand rest)

end

/-- Whether a tuple passes; without a condition every one does. -/
def passes (m : Meaning) (params : List Value) (tables : List Table) (tuple : Tuple) :
    Option Condition → Bool
  | none => true
  | some c => c.holds m params (ColumnRef.operand tables tuple) == .yes

def isOverlong (m : Meaning) : Value → Bool
  | .text s => m.limits.pattern < s.utf8ByteSize
  | _ => false

mutual

/-- Whether a tuple is searched for a pattern that is too long.  The parts of a conjunction
are looked at until one does not hold. -/
def meetsOverlong (m : Meaning) (params : List Value) (operand : ColumnRef → Operand) :
    Condition → Bool
  | .like _ _ param _ => isOverlong m (argument params param)
  | .and parts => anyMeetsOverlong m params operand parts
  | _ => false

def anyMeetsOverlong (m : Meaning) (params : List Value) (operand : ColumnRef → Operand) :
    List Condition → Bool
  | [] => false
  | c :: rest =>
      meetsOverlong m params operand c ||
        (c.holds m params operand == .yes && anyMeetsOverlong m params operand rest)

end

end Condition

/-! ## Order -/

namespace SortKey

/-- Where a missing value stands to one that is there. -/
def nullsFirst (m : Meaning) (k : SortKey) : Bool :=
  match k.nulls with
  | .nullsFirst => true
  | .nullsLast => false
  | .native => m.nullsSmallest != k.direction.isDescending

def order (m : Meaning) (k : SortKey) (a b : Operand) : Ordering :=
  match a.cell.isNull, b.cell.isNull with
  | true, true => .eq
  | true, false => if k.nullsFirst m then .lt else .gt
  | false, true => if k.nullsFirst m then .gt else .lt
  | false, false => if k.direction.isDescending then m.order b a else m.order a b

/-- Two tuples by sort keys, the first that tells them apart. -/
def orderTuples (m : Meaning) (tables : List Table) (keys : List SortKey) (a b : Tuple) :
    Ordering :=
  keys.foldr (fun k rest =>
    (k.order m (k.ref.operand tables a) (k.ref.operand tables b)).then rest) .eq

end SortKey

/-! ## Windows -/

namespace WindowParams

def number (params : List Value) (n : Nat) : Nat :=
  match Condition.argument params n with
  | .int k => k.toInt.toNat
  | _ => 0

def cut {α : Type} (params : List Value) (items : List α) : Option WindowParams → List α
  | none => items
  | some w => (items.drop (number params w.offset)).take (number params w.limit)

end WindowParams

namespace Statement

def product (m : Meaning) (s : Statement) (root : Table) (joined : List Table) : List Tuple :=
  (s.joins.zip joined).foldl (joinStep m (root :: joined)) (root.rows.map fun row => [some row])

def matching (m : Meaning) (s : Statement) (root : Table) (joined : List Table) :
    List Tuple :=
  (s.product m root joined).filter fun tuple =>
    Condition.passes m s.params (root :: joined) tuple s.condition

/-- The tuples in order; those that no key tells apart stay as they are. -/
def ordered (m : Meaning) (s : Statement) (root : Table) (joined : List Table) : List Tuple :=
  (s.matching m root joined).mergeSort fun a b =>
    (SortKey.orderTuples m (root :: joined) s.order a b).isLE

def rootCells (tuple : Tuple) : List Cell :=
  match tuple with
  | some row :: _ => row.cells
  | _ => []

/-- No pattern that a tuple is searched for is too long. -/
def checkPatterns (m : Meaning) (s : Statement) (root : Table) (joined : List Table) :
    Except Unprepared Unit :=
  let meets := fun (tuple : Tuple) =>
    s.condition.any fun c =>
      c.meetsOverlong m s.params (ColumnRef.operand (root :: joined) tuple)
  if s.params.any (Condition.isOverlong m) && (s.product m root joined).any meets then
    .error .patternTooLong
  else .ok ()

/-- The columns of the root table and the cells that a statement selects. -/
def rows (m : Meaning) (d : Database) (s : Statement) :
    Except Unprepared (List Column × List (List Cell)) := do
  let (root, joined) ← s.tables m d
  s.checkPatterns m root joined
  return (root.columns,
    WindowParams.cut s.params ((s.ordered m root joined).map rootCells) s.window)

def total (m : Meaning) (d : Database) (s : Statement) : Except Unprepared Nat := do
  let (root, joined) ← s.tables m d
  s.checkPatterns m root joined
  return (s.matching m root joined).length

end Statement
end Sql
end TableSearch
