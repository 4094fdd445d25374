/-
Stored values.

Every cell has a storage class of its own.  The affinity of its column decides in which
class a number is stored, and whether a text that looks like a number becomes one.
-/
import TableSearch.Text.Hex
import TableSearch.Text.Numeral
import TableSearch.Text.Utf8
import TableSearch.Text.Cut
import TableSearch.Value

namespace TableSearch

/-- A stored value.  Texts are bytes, which need not be UTF-8. -/
inductive Cell where
  | null
  | integer (n : Int64)
  | real (x : Double)
  | text (bytes : List UInt8)
  | blob (bytes : List UInt8)
deriving DecidableEq

/-- What a column makes of the values put into it. -/
inductive Affinity where
  | integer
  | real
  | numeric
  | text
  | none
deriving DecidableEq, Repr

namespace Affinity

/-- Whether a text holds a word, in any case. -/
def mentions (word : String) (s : String) : Bool :=
  go word.toList (Text.asciiLower s).toList
where
  go (word : List Char) : List Char → Bool
    | [] => word.isEmpty
    | c :: rest => word.isPrefixOf (c :: rest) || go word rest

/-- The affinity of a type by the words it holds; the first that fits decides. -/
def ofType (type : String) : Affinity :=
  if mentions "int" type then .integer
  else if mentions "char" type || mentions "clob" type || mentions "text" type then .text
  else if mentions "blob" type then .none
  else if mentions "real" type || mentions "floa" type || mentions "doub" type then .real
  else .numeric

def isNumeric : Affinity → Bool
  | .integer => true
  | .real => true
  | .numeric => true
  | _ => false

end Affinity

namespace Cell

def isNull : Cell → Bool
  | .null => true
  | _ => false

def ofText (s : String) : Cell :=
  .text (Utf8.encode s.toList)

/-- The cell of a single value.  A boolean is one or zero, and what is no number is
nothing.  Lists have no cell. -/
def ofValue? : Value → Option Cell
  | .null => some .null
  | .bool b => some (.integer (if b then 1 else 0))
  | .int n => some (.integer n)
  | .float x => some (if x.isNaN then .null else .real x)
  | .text s => some (ofText s)
  | .list _ => none

/-! ## Numbers as texts, and texts as numbers -/

def numberText? : Cell → Option String
  | .integer n => some (Value.intText n)
  | .real x => some (Layout.sqlText.text x)
  | _ => none

/-- The text of a value, in bytes. -/
def textBytes? : Cell → Option (List UInt8)
  | .null => none
  | .text bytes => some bytes
  | .blob bytes => some bytes
  | c => c.numberText?.map fun s => Utf8.encode s.toList

/-- A number as its text; other values stay as they are. -/
def stringified (c : Cell) : Cell :=
  match c.numberText? with
  | some s => ofText s
  | none => c

/-- A real number that is a whole one of 64 bits is that, but for the smallest of them. -/
def narrowed (x : Double) : Cell :=
  match x.integral? with
  | some n => if -(2 ^ 63) < n ∧ n < 2 ^ 63 then .integer (Int64.ofInt n) else .real x
  | none => .real x

def isSpace (c : Char) : Bool :=
  c == ' ' || (9 ≤ c.toNat && c.toNat ≤ 13)

/-- The sign at the start of a text, and what follows it. -/
def signed : List Char → Bool × List Char
  | '-' :: rest => (true, rest)
  | '+' :: rest => (false, rest)
  | cs => (false, cs)

/-- The exponent after its letter, which needs a digit, and what follows it. -/
def exponentAfter (cs : List Char) : Option (Option Int × List Char) :=
  let (negative, cs) := signed cs
  match Numeral.spanDigits cs with
  | ([], _) => none
  | (ds, after) =>
      let n : Int := Numeral.digitsValue ds
      some (some (if negative then -n else n), after)

/-- The digits after a point, if there is one, and what follows them. -/
def fractionOf : List Char → Option (List Nat) × List Char
  | '.' :: rest =>
      let (ds, after) := Numeral.spanDigits rest
      (some ds, after)
  | cs => (none, cs)

def exponentOf : List Char → Option (Option Int × List Char)
  | 'e' :: rest => exponentAfter rest
  | 'E' :: rest => exponentAfter rest
  | cs => some (none, cs)

/-- The numeral that a text is, but for white space around it.  It may begin or end with
its point. -/
def numeral? (bytes : List UInt8) : Option Numeral := do
  let cs := (bytes.map fun b => Char.ofNat b.toNat).dropWhile isSpace
  let (negative, cs) := signed cs
  let (whole, cs) := Numeral.spanDigits cs
  let (fraction, cs) := fractionOf cs
  let (exponent, cs) ← exponentOf cs
  if cs.all isSpace && !(whole.isEmpty && (fraction.getD []).isEmpty) then
    some { negative, whole, fraction, exponent }
  else none

/-- Append digits while the number is below a bound; the second part counts the digits
left out. -/
def significand : Nat → List Nat → Nat × Nat
  | n, [] => (n, 0)
  | n, d :: rest =>
      if n < (2 ^ 64 - 10) / 10 then significand (n * 10 + d) rest
      else (n, rest.length + 1)

/-- The double nearest to a significand times a power of ten. -/
def scaled (negative : Bool) (n : Nat) (exponent : Int) : Double :=
  if n = 0 ∨ exponent < -400 then Double.ofRatio negative 0 1
  else if 400 < exponent then Double.ofMagnitude negative Double.infiniteMagnitude
  else if exponent < 0 then Double.ofRatio negative n (10 ^ (-exponent).toNat)
  else Double.ofRatio negative (n * 10 ^ exponent.toNat) 1

/-- The number of a numeral: a whole number of 64 bits when it is written as one, and
else a double. -/
def ofNumeral (t : Numeral) : Cell :=
  let fraction := t.fraction.getD []
  let (n, dropped) := significand 0 (t.whole ++ fraction)
  let x := scaled t.negative n (dropped - fraction.length + t.exponent.getD 0)
  let whole : Int := Numeral.digitsValue t.whole
  let whole := if t.negative then -whole else whole
  if t.fraction.isNone ∧ t.exponent.isNone ∧ -(2 ^ 63) ≤ whole ∧ whole < 2 ^ 63 then
    .integer (Int64.ofInt whole)
  else .real x

/-- A text that looks like a number as that number; other values stay as they are. -/
def numbered (c : Cell) : Cell :=
  match c with
  | .text bytes =>
      match numeral? bytes with
      | some t => ofNumeral t
      | none => c
  | _ => c

/-! ## Storing -/

/-- The stored form of a value in a column of this affinity.  A real column keeps no
negative zero. -/
def stored (a : Affinity) (c : Cell) : Cell :=
  match a with
  | .none => c
  | .text => c.stringified
  | .real =>
      match c.numbered with
      | .integer n => .real (Double.ofInt n.toInt)
      | .real x => .real (if x.isZero then Double.ofInt 0 else x)
      | c => c
  | _ =>
      match c.numbered with
      | .real x => narrowed x
      | c => c

/-! ## Reading -/

/-- The value of a cell.  In a boolean column a whole number is a truth value.  A blob is
shown by its hexadecimal digits. -/
def toValue (boolean : Bool) : Cell → Value
  | .null => .null
  | .integer n => if boolean then .bool (n != 0) else .int n
  | .real x => .float x
  | .text bytes => .text (String.ofList (Utf8.decode bytes))
  | .blob bytes => .text (String.ofList (Hex.ofBytes bytes))

end Cell
end TableSearch
