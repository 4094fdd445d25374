/-
Decimals near a double.

`shortest` is the decimal with the fewest digits that lies in the interval of the
numbers that round to the double, and of those the nearest.  `rounded` is the
decimal with a fixed number of digits.  Both compare multiples of a power of ten
with the exact value.
-/
import TableSearch.Double.Basic

namespace TableSearch

/-- The number `digits * 10 ^ exponent`. -/
structure Decimal where
  digits : Nat
  exponent : Int
deriving DecidableEq, Repr

namespace Decimal

/-- The last digit is not zero, unless it is the only one.  The fuel bounds the
number of zeros removed. -/
def stripZeros : Nat → Decimal → Decimal
  | 0, d => d
  | fuel + 1, d =>
      if d.digits = 0 then ⟨0, 0⟩
      else if d.digits % 10 = 0 then stripZeros fuel ⟨d.digits / 10, d.exponent + 1⟩
      else d

/-- Without zeros at the end. -/
def normal (d : Decimal) : Decimal :=
  stripZeros d.digits.log2.succ d

/-- Which of two equally near neighbours is taken. -/
inductive Tie where
  | toEven
  | up
deriving DecidableEq, Repr

/-- A ratio divided by `10 ^ k`. -/
def overTen (num den : Nat) (k : Int) : Nat × Nat :=
  if 0 ≤ k then (num, den * 10 ^ k.toNat) else (num * 10 ^ (-k).toNat, den)

/-- A bound on the place of the first digit of `m * 2 ^ e`: the number lies below
`10 ^ place`. -/
def placeBound (m : Nat) (e : Int) : Int :=
  ((m.log2 : Int) + 1 + e) * 30103 / 100000 + 2

/-- Go down to the place of the first digit.  The bound is at most four places too
high. -/
def placeBelow (num den : Nat) : Nat → Int → Int
  | 0, p => p
  | fuel + 1, p =>
      let (n, d) := overTen num den (p - 1)
      if d ≤ n then p else placeBelow num den fuel (p - 1)

/-- The place `p` of the first digit of a positive number: it lies from
`10 ^ (p - 1)` up to, but without, `10 ^ p`. -/
def firstPlace (m : Nat) (e : Int) : Int :=
  let (num, den) := Double.unscaled m 1 (-e)
  placeBelow num den 5 (placeBound m e)

/-! ## The shortest decimal -/

/-- A number, the ends of its rounding interval, and whether the ends belong to it;
all in the same unit. -/
structure Interval where
  low : Nat
  value : Nat
  high : Nat
  unit : Nat × Nat
  closed : Bool

def Interval.holds (i : Interval) (n : Nat) (d : Nat) (x : Nat) : Bool :=
  if i.closed then i.low * n ≤ x * d && x * d ≤ i.high * n
  else i.low * n < x * d && x * d < i.high * n

/-- The numbers that round to `m * 2 ^ e`.  The unit is a quarter of the last bit;
below a power of two the doubles lie twice as close. -/
def Interval.around (m : Nat) (e : Int) : Interval where
  low := 4 * m - (if m = 2 ^ 52 ∧ e ≠ -1074 then 1 else 2)
  value := 4 * m
  high := 4 * m + 2
  unit := Double.unscaled 1 1 (2 - e)
  closed := m % 2 = 0

/-- The multiple of `10 ^ k` in the interval that is nearest to the value. -/
def Interval.multiple? (i : Interval) (tie : Tie) (k : Int) : Option Nat :=
  let (n, d) := overTen i.unit.1 i.unit.2 k
  let below := i.value * n / d
  let above := below + 1
  match i.holds n d below, i.holds n d above with
  | true, true =>
      let down := i.value * n - below * d
      let up := above * d - i.value * n
      if down < up then some below
      else if up < down then some above
      else
        match tie with
        | .up => some above
        | .toEven => some (if below % 2 = 0 then below else above)
  | true, false => some below
  | false, true => some above
  | false, false => none

/-- Try coarser grids first.  Seventeen digits always read back. -/
def Interval.search (i : Interval) (tie : Tie) : Nat → Int → Decimal
  | 0, k => ⟨0, k⟩
  | fuel + 1, k =>
      match i.multiple? tie k with
      | some x => ⟨x, k⟩
      | none => i.search tie fuel (k - 1)

/-- The fewest digits that read back as the double `m * 2 ^ e`, for positive `m`. -/
def shortest (tie : Tie) (m : Nat) (e : Int) : Decimal :=
  normal ((Interval.around m e).search tie 18 (firstPlace m e))

/-! ## A fixed number of digits -/

/-- The nearest decimal with `count` digits; a half goes up. -/
def rounded (count : Nat) (m : Nat) (e : Int) : Decimal :=
  let k := firstPlace m e - count
  let (num, den) := Double.unscaled m 1 (-e)
  let (n, d) := overTen num den k
  normal ⟨(2 * n + d) / (2 * d), k⟩

end Decimal
end TableSearch
