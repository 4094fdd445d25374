/-
How a double is written.

A `Layout` holds the choices of one format.  The three layouts of this library are
the JSON number, the plain form shown to people and used in patterns, and the text
that a database engine makes of a real number.
-/
import TableSearch.Double.Shortest

namespace TableSearch

/-- The choices of a number format. -/
structure Layout where
  /-- The digits of a positive number. -/
  decimal : Nat → Int → Decimal
  /-- Whether a number with this decimal exponent is written without one. -/
  positional : Int → Bool
  /-- Whether a whole number in positional form ends in `.0`. -/
  pointZero : Bool
  /-- Whether a single digit before an exponent is followed by `.0`. -/
  exponentPointZero : Bool
  /-- The least number of digits of an exponent. -/
  exponentWidth : Nat
  /-- Whether zero keeps its sign. -/
  signedZero : Bool
  nan : String
  infinity : String
  negativeInfinity : String

namespace Layout

def zeros (n : Nat) : List Char :=
  List.replicate n '0'

def digitChars (n : Nat) : List Char :=
  Nat.toDigits 10 n

/-- Digits with the point before the place `10 ^ (-1)`. -/
def positionalChars (pointZero : Bool) (d : Decimal) : List Char :=
  let ds := digitChars d.digits
  if 0 ≤ d.exponent then
    ds ++ zeros d.exponent.toNat ++ (if pointZero then ['.', '0'] else [])
  else
    let places := (-d.exponent).toNat
    if places < ds.length then
      ds.take (ds.length - places) ++ '.' :: ds.drop (ds.length - places)
    else '0' :: '.' :: zeros (places - ds.length) ++ ds

def exponentChars (width : Nat) (e : Int) : List Char :=
  let ds := digitChars e.natAbs
  (if e < 0 then '-' else '+') :: zeros (width - ds.length) ++ ds

/-- One digit, the other digits after a point, and the exponent. -/
def scientificChars (pointZero : Bool) (width : Nat) (d : Decimal) (e : Int) : List Char :=
  match digitChars d.digits with
  | [] => []
  | [c] => c :: (if pointZero then ['.', '0'] else []) ++ 'e' :: exponentChars width e
  | c :: rest => c :: '.' :: rest ++ 'e' :: exponentChars width e

def leadingExponent (d : Decimal) : Int :=
  d.exponent + (digitChars d.digits).length - 1

def decimalChars (l : Layout) (d : Decimal) : List Char :=
  let e := leadingExponent d
  if l.positional e then positionalChars l.pointZero d
  else scientificChars l.exponentPointZero l.exponentWidth d e

def chars (l : Layout) (x : Double) : List Char :=
  match x.reading with
  | .nan => l.nan.toList
  | .infinite negative => (if negative then l.negativeInfinity else l.infinity).toList
  | .finite negative 0 _ =>
      (if negative && l.signedZero then ['-'] else []) ++
        '0' :: (if l.pointZero then ['.', '0'] else [])
  | .finite negative m e =>
      (if negative then ['-'] else []) ++ l.decimalChars (l.decimal m e)

def text (l : Layout) (x : Double) : String :=
  String.ofList (l.chars x)

/-- JSON numbers: shortest digits, positional from `10 ^ (-5)` to below `10 ^ 16`, always
with a fraction there.  What is no number is written as null. -/
def json : Layout where
  decimal := Decimal.shortest .toEven
  positional e := -5 ≤ e && e < 16
  pointZero := true
  exponentPointZero := false
  exponentWidth := 1
  signedZero := true
  nan := "null"
  infinity := "null"
  negativeInfinity := "null"

/-- The plain form: shortest digits, never an exponent, no fraction for whole numbers. -/
def plain : Layout where
  decimal := Decimal.shortest .up
  positional _ := true
  pointZero := false
  exponentPointZero := false
  exponentWidth := 1
  signedZero := true
  nan := "NaN"
  infinity := "inf"
  negativeInfinity := "-inf"

/-- The text that SQL makes of a real number: fifteen digits and at least one decimal. -/
def sqlText : Layout where
  decimal := Decimal.rounded 15
  positional e := -4 ≤ e && e < 15
  pointZero := true
  exponentPointZero := true
  exponentWidth := 2
  signedZero := false
  nan := "NaN"
  infinity := "Inf"
  negativeInfinity := "-Inf"

end Layout
end TableSearch
