/-
Stored values compared.

Numbers are compared by size, texts by the collation of their column, and blobs by
bytes.  Before two values are compared, the affinities of their columns may turn texts
into numbers or numbers into texts.
-/
import TableSearch.Database.Cell
import TableSearch.Database.Declaration

namespace TableSearch

/-- What a column says about comparisons with its cells. -/
structure Traits where
  affinity : Affinity
  collation : Collation
  /-- Whether the column holds the numbers of the rows. -/
  isRowNumber : Bool
deriving DecidableEq, Repr

/-- A cell with the traits of its column. -/
structure Operand where
  cell : Cell
  traits : Traits

/-! ## Collations -/

/-- Byte for byte; a beginning of a text is smaller than the text. -/
def orderBytes : List UInt8 → List UInt8 → Ordering
  | [], [] => .eq
  | [], _ :: _ => .lt
  | _ :: _, [] => .gt
  | a :: as, b :: bs => (compare a.toNat b.toNat).then (orderBytes as bs)

namespace Collation

/-- Lower case of an ASCII capital. -/
def lowerCode (n : Nat) : Nat :=
  if 65 ≤ n ∧ n ≤ 90 then n + 32 else n

/-- Without regard to case up to a byte that is zero in both, and then by length. -/
def orderNocase : List UInt8 → List UInt8 → Ordering
  | [], [] => .eq
  | [], _ :: _ => .lt
  | _ :: _, [] => .gt
  | a :: as, b :: bs =>
      if a = 0 ∧ b = 0 then compare as.length bs.length
      else (compare (lowerCode a.toNat) (lowerCode b.toNat)).then (orderNocase as bs)

/-- Without the spaces at the end. -/
def withoutPadding (bytes : List UInt8) : List UInt8 :=
  (bytes.reverse.dropWhile (· == 32)).reverse

def order (c : Collation) (a b : List UInt8) : Ordering :=
  match c with
  | .binary => orderBytes a b
  | .nocase => orderNocase a b
  | .rtrim => orderBytes (withoutPadding a) (withoutPadding b)

end Collation

/-! ## Order -/

namespace Cell

/-- The place of a storage class: nothing, numbers, texts, blobs. -/
def rank : Cell → Nat
  | .null => 0
  | .integer _ => 1
  | .real _ => 1
  | .text _ => 2
  | .blob _ => 3

/-- Numbers by size, texts by a collation, blobs by bytes, and different classes by their
places. -/
def order (c : Collation) : Cell → Cell → Ordering
  | .integer a, .integer b => compare a.toInt b.toInt
  | .integer a, .real y => Double.orderInt a.toInt y
  | .real x, .integer b => (Double.orderInt b.toInt x).swap
  | .real x, .real y => Double.order x y
  | .text a, .text b => c.order a b
  | .blob a, .blob b => orderBytes a b
  | a, b => compare a.rank b.rank

end Cell

/-! ## Affinities of two sides -/

namespace Affinity

/-- Two values as an affinity has them compared: texts that look like numbers as numbers,
or, when one of them is a text, numbers as texts. -/
def adjusted (a : Affinity) (x y : Cell) : Cell × Cell :=
  match a with
  | .none => (x, y)
  | .text =>
      if x.rank == 2 || y.rank == 2 then (x.stringified, y.stringified) else (x, y)
  | _ => (x.numbered, y.numbered)

/-- The affinity that two columns are compared with. -/
def common (a b : Affinity) : Affinity :=
  if a.isNumeric || b.isNumeric then .numeric else .none

end Affinity

namespace Operand

/-- The order of an operand and a cell under an affinity. -/
def orderTo (x : Operand) (a : Affinity) (y : Cell) : Ordering :=
  let (x', y') := a.adjusted x.cell y
  Cell.order x.traits.collation x' y'

/-- Whether a row can be looked up under a number, which must be a whole one. -/
def isLookedUp (y : Cell) : Bool :=
  match y.stored .numeric with
  | .integer _ => true
  | _ => false

/-- Whether an operand equals a cell under an affinity.  Row numbers are looked up rather
than compared. -/
def equals (x : Operand) (a : Affinity) (y : Cell) : Bool :=
  (!x.traits.isRowNumber || isLookedUp y) && (x.orderTo a y).isEq

end Operand
end TableSearch
