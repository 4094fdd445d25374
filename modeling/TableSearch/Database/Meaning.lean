/-
What a backend makes of single values.

A condition is yes, no or unknown.  A `Meaning` says how a backend compares a stored
value with a bound one, how it orders stored values, and how large a statement may be;
everything else about a statement is the same for all backends.
-/
import TableSearch.Database.Comparison
import TableSearch.Predicate.Basic

namespace TableSearch

inductive Truth where
  | yes
  | no
  | unknown
deriving DecidableEq, Repr

namespace Truth

def ofBool (b : Bool) : Truth :=
  if b then .yes else .no

/-- No wins over unknown, and unknown over yes. -/
def and : Truth → Truth → Truth
  | .no, _ => .no
  | _, .no => .no
  | .yes, t => t
  | .unknown, _ => .unknown

/-- Yes wins over unknown, and unknown over no. -/
def or : Truth → Truth → Truth
  | .yes, _ => .yes
  | _, .yes => .yes
  | .no, t => t
  | .unknown, _ => .unknown

/-- The disjunction of a list, no for none. -/
def any (ts : List Truth) : Truth :=
  ts.foldr or .no

theorem and_eq_yes {s t : Truth} : s.and t = .yes ↔ s = .yes ∧ t = .yes := by
  cases s <;> cases t <;> simp [and]

theorem or_eq_yes {s t : Truth} : s.or t = .yes ↔ s = .yes ∨ t = .yes := by
  cases s <;> cases t <;> simp [or]

theorem any_eq_yes {ts : List Truth} : any ts = .yes ↔ .yes ∈ ts := by
  induction ts with
  | nil => simp [any]
  | cons t rest ih =>
    have h : any (t :: rest) = t.or (any rest) := rfl
    rw [h, or_eq_yes, ih, List.mem_cons, eq_comm]

end Truth

structure Limits where
  /-- The number of tables that are joined. -/
  tables : Nat
  /-- The number of parameters. -/
  parameters : Nat
  /-- How deep conditions lie in each other. -/
  depth : Nat
  /-- The bytes of a pattern. -/
  pattern : Nat
deriving DecidableEq, Repr

/-- How a backend compares and orders values. -/
structure Meaning where
  /-- A stored value compared with a bound one. -/
  compare : Comparison → Operand → Value → Truth
  /-- A stored value, or its text, searched for a bound pattern with an escape
  character. -/
  like : Bool → Char → Cell → Value → Truth
  /-- Whether a stored value of a joined table agrees with one of a table before it. -/
  equal : Operand → Operand → Truth
  /-- Nothing agrees with a missing value. -/
  equal_null : ∀ x y, y.cell = .null → equal x y ≠ .yes
  /-- The order of two stored values that are there. -/
  order : Operand → Operand → Ordering
  /-- Whether missing values are the smallest ones, and otherwise the largest. -/
  nullsSmallest : Bool
  limits : Limits

namespace Meaning

def satisfies : Comparison → Ordering → Bool
  | .eq, o => o.isEq
  | .notEq, o => !o.isEq
  | .gt, o => o.isGT
  | .gte, o => o.isGE
  | .lt, o => o.isLT
  | .lte, o => o.isLE

/-- An operand compared with a cell under an affinity; unknown when one is missing. -/
def compareCells (op : Comparison) (a : Affinity) (x : Operand) (y : Cell) : Truth :=
  if x.cell.isNull || y.isNull then .unknown
  else if op = .eq then .ofBool (x.equals a y)
  else .ofBool (satisfies op (x.orderTo a y))

/-! ## Pattern search -/

/-- The code points of bytes up to the first that is zero, without regard to the case of
ASCII letters. -/
def foldedCodes (bytes : List UInt8) : List Nat :=
  (Utf8.codes (bytes.takeWhile (· != 0))).map Collation.lowerCode

/-- Whether the text of a cell matches the text of a pattern. -/
def likeCells (escape : Char) (subject pattern : Cell) : Truth :=
  match subject.textBytes?, pattern.textBytes? with
  | some s, some p =>
      .ofBool (Text.matchesPattern (· == ·) (· == 37) (· == 95)
        (· == Collation.lowerCode escape.toNat) (foldedCodes p) (foldedCodes s))
  | _, _ => .unknown

theorem compareCells_null {op : Comparison} {a : Affinity} {x : Operand} {y : Cell}
    (h : y = .null) : compareCells op a x y = .unknown := by
  rw [h, compareCells, Cell.isNull, Bool.or_true, if_pos rfl]

/-- The meaning of the embedded engine.  A bound value is compared under the affinity of
the column, and two columns under what is common to theirs. -/
def sqlite : Meaning where
  compare op x v :=
    match Cell.ofValue? v with
    | some d => compareCells op x.traits.affinity x d
    | none => .unknown
  like _ escape c v :=
    match Cell.ofValue? v with
    | some d => likeCells escape c d
    | none => .unknown
  equal x y := compareCells .eq (x.traits.affinity.common y.traits.affinity) x y.cell
  equal_null x y h := by
    rw [compareCells_null h]
    decide
  order x y := Cell.order x.traits.collation x.cell y.cell
  nullsSmallest := true
  limits := { tables := 64, parameters := 32766, depth := 1000, pattern := 50000 }

end Meaning
end TableSearch
