/-
Numbers in JSON text.

A number without fraction and exponent that fits 64 bits with sign is a whole
number.  Every other number is a double.  Its digits are taken while they fit 64
bits without sign, rounded to a double, and then scaled by a double power of ten,
so that each step rounds once.  A number beyond the largest double is refused.
-/
import TableSearch.Double.Basic
import TableSearch.Text.Numeral

namespace TableSearch
namespace Json

inductive Number where
  | int (n : Int)
  | float (x : Double)
deriving DecidableEq

namespace Number

def largestSignificand : Nat := 2 ^ 64 - 1

/-- Append digits while the number fits; the second part counts the digits left out. -/
def takeWhole : Nat → List Nat → Nat × Nat
  | n, [] => (n, 0)
  | n, d :: rest =>
      if n * 10 + d ≤ largestSignificand then takeWhole (n * 10 + d) rest
      else (n, rest.length + 1)

/-- Append digits while the number fits; the second part counts the digits taken. -/
def takeFraction : Nat → List Nat → Nat × Nat
  | n, [] => (n, 0)
  | n, d :: rest =>
      if n * 10 + d ≤ largestSignificand then
        let (m, taken) := takeFraction (n * 10 + d) rest
        (m, taken + 1)
      else (n, 0)

def powerOfTen (n : Nat) : Double :=
  Double.ofRatio false (10 ^ n) 1

/-- Divide by `10 ^ n`, in steps of at most `10 ^ 308`. -/
def shrink (x : Double) (n : Nat) : Double :=
  if n ≤ 308 then x.overMagnitude (powerOfTen n)
  else if x.isZero then x
  else shrink (x.overMagnitude (powerOfTen 308)) (n - 308)
termination_by n

/-- A significand times a power of ten; none when it is beyond the largest double. -/
def scaled (significand : Nat) (exponent : Int) : Option Double :=
  let x := Double.ofRatio false significand 1
  if exponent < 0 then some (shrink x (-exponent).toNat)
  else if 308 < exponent then
    if significand = 0 then some x else none
  else
    let y := x.timesMagnitude (powerOfTen exponent.toNat)
    if y.isInfinite then none else some y

def signed (negative : Bool) (x : Double) : Double :=
  if negative then x.neg else x

/-- A number without fraction and exponent whose digits all fit. -/
def ofWhole (negative : Bool) (n : Nat) : Number :=
  if negative then
    if 0 < n ∧ n ≤ 2 ^ 63 then .int (-n) else .float (Double.ofRatio true n 1)
  else if n < 2 ^ 63 then .int n
  else .float (Double.ofRatio false n 1)

/-- The number that a numeral stands for; none when it is out of range. -/
def ofNumeral (t : Numeral) : Option Number :=
  let (n, dropped) := takeWhole 0 t.whole
  match t.fraction, t.exponent, dropped with
  | none, none, 0 => some (ofWhole t.negative n)
  | _, _, _ =>
      let (m, taken) := takeFraction n (t.fraction.getD [])
      (scaled m (dropped - taken + t.exponent.getD 0)).map fun x =>
        .float (signed t.negative x)

end Number
end Json
end TableSearch
