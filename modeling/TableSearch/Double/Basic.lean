/-
Double-precision numbers.

A number is held as its 64 bits.  `reading` gives the number that the bits stand
for, and `ofRatio` the double nearest to a ratio of natural numbers.  All
arithmetic here is exact arithmetic on natural numbers followed by one rounding.
-/

namespace TableSearch

-- Powers are computed as `Nat.pow` and `Int.pow` do, also where monoids are in scope.
attribute [instance(high), default_instance(high + 1)] instPowNat

/-- A double-precision number in the binary64 format. -/
structure Double where
  bits : UInt64
deriving DecidableEq, Inhabited, Repr

namespace Double

/-- What the bits of a double stand for.  A finite number is
`± mantissa * 2 ^ exponent`. -/
inductive Reading where
  | nan
  | infinite (negative : Bool)
  | finite (negative : Bool) (mantissa : Nat) (exponent : Int)
deriving DecidableEq, Repr

def negative (d : Double) : Bool :=
  d.bits.toNat / 2 ^ 63 == 1

def exponentField (d : Double) : Nat :=
  d.bits.toNat / 2 ^ 52 % 2 ^ 11

def fraction (d : Double) : Nat :=
  d.bits.toNat % 2 ^ 52

def reading (d : Double) : Reading :=
  if d.exponentField = 2047 then
    if d.fraction = 0 then .infinite d.negative else .nan
  else if d.exponentField = 0 then .finite d.negative d.fraction (-1074)
  else .finite d.negative (2 ^ 52 + d.fraction) ((d.exponentField : Int) - 1075)

def isNaN (d : Double) : Bool :=
  match d.reading with
  | .nan => true
  | _ => false

def isInfinite (d : Double) : Bool :=
  match d.reading with
  | .infinite _ => true
  | _ => false

def isZero (d : Double) : Bool :=
  match d.reading with
  | .finite _ 0 _ => true
  | _ => false

/-! ## Rounding -/

/-- The double with this sign whose other 63 bits are `magnitude`. -/
def ofMagnitude (negative : Bool) (magnitude : Nat) : Double where
  bits := UInt64.ofNat ((if negative then 2 ^ 63 else 0) + magnitude)

/-- The nearest whole number to a quotient; a half goes to the even neighbour. -/
def roundHalfEven (num den : Nat) : Nat :=
  let q := num / den
  let r := num % den
  if 2 * r < den then q
  else if den < 2 * r then q + 1
  else q + q % 2

/-- A ratio divided by `2 ^ e`, as numerator and denominator. -/
def unscaled (num den : Nat) (e : Int) : Nat × Nat :=
  if 0 ≤ e then (num, den * 2 ^ e.toNat) else (num * 2 ^ (-e).toNat, den)

/-- The exponent at which a double keeps the ratio: 53 bits of it, or fewer at the
smallest exponent. -/
def keptExponent (num den : Nat) : Int :=
  let k : Int := (num.log2 : Int) - (den.log2 : Int) - 52
  let (n, d) := unscaled num den k
  max (if 2 ^ 52 ≤ n / d then k else k - 1) (-1074)

/-- The magnitude bits of infinity. -/
def infiniteMagnitude : Nat := 2047 * 2 ^ 52

/-- The double nearest to `± num / den`; a half goes to the even neighbour, and
numbers beyond the largest double become infinite. -/
def ofRatio (negative : Bool) (num den : Nat) : Double :=
  if num = 0 then ofMagnitude negative 0
  else
    let e := keptExponent num den
    let (n, d) := unscaled num den e
    ofMagnitude negative
      (min ((e + 1074).toNat * 2 ^ 52 + roundHalfEven n d) infiniteMagnitude)

def ofInt (n : Int) : Double :=
  ofRatio (n < 0) n.natAbs 1

/-- The magnitude of a finite double as a ratio, and `0 / 1` otherwise. -/
def ratio (d : Double) : Nat × Nat :=
  match d.reading with
  | .finite _ m e => if 0 ≤ e then (m * 2 ^ e.toNat, 1) else (m, 2 ^ (-e).toNat)
  | _ => (0, 1)

def neg (d : Double) : Double where
  bits := d.bits ^^^ 0x8000000000000000

/-- The product of two finite numbers without sign, rounded once. -/
def timesMagnitude (a b : Double) : Double :=
  ofRatio false (a.ratio.1 * b.ratio.1) (a.ratio.2 * b.ratio.2)

/-- The quotient of two finite numbers without sign, rounded once. -/
def overMagnitude (a b : Double) : Double :=
  ofRatio false (a.ratio.1 * b.ratio.2) (a.ratio.2 * b.ratio.1)

/-! ## Order -/

/-- A finite number as a count of the smallest positive double, `2 ^ (-1074)`. -/
def units? (d : Double) : Option Int :=
  match d.reading with
  | .finite negative m e =>
      let n : Int := m * 2 ^ (e + 1074).toNat
      some (if negative then -n else n)
  | _ => none

/-- Numerical order; a number that is not one is equal to all. -/
def order (a b : Double) : Ordering :=
  match a.reading, b.reading with
  | .nan, _ => .eq
  | _, .nan => .eq
  | .infinite na, .infinite nb => if na = nb then .eq else if na then .lt else .gt
  | .infinite na, _ => if na then .lt else .gt
  | _, .infinite nb => if nb then .gt else .lt
  | .finite .., .finite .. => compare (a.units?.getD 0) (b.units?.getD 0)

/-- Numerical order of a whole number and a double. -/
def orderInt (n : Int) (d : Double) : Ordering :=
  match d.reading with
  | .nan => .eq
  | .infinite negative => if negative then .gt else .lt
  | .finite .. => compare (n * 2 ^ 1074) (d.units?.getD 0)

/-- The whole number that a double equals, if it is one. -/
def integral? (d : Double) : Option Int :=
  match d.units? with
  | none => none
  | some n => if n % 2 ^ 1074 = 0 then some (n / 2 ^ 1074) else none

end Double
end TableSearch
