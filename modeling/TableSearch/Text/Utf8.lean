/-
Characters as UTF-8 bytes, and back.

Bytes that are no UTF-8 are read in two ways.  `decode` is the reading for people: every
maximal part that begins no character becomes one U+FFFD.  `codes` is the reading of
pattern search: a first byte and all continuation bytes after it make one number,
whatever it is.
-/

namespace TableSearch
namespace Utf8

def encode (cs : List Char) : List UInt8 :=
  cs.flatMap String.utf8EncodeChar

def isContinuation (b : UInt8) : Bool :=
  b.toNat / 64 == 2

/-! ## Reading for people -/

/-- A character of which some bytes were read. -/
structure Pending where
  /-- The bits so far. -/
  bits : Nat
  /-- How many bytes must come. -/
  missing : Nat
  /-- The range of the next byte. -/
  low : Nat
  high : Nat

def replacement : Char := Char.ofNat 0xFFFD

/-- What the first byte of a longer character asks for. -/
def lead? (b : UInt8) : Option Pending :=
  let n := b.toNat
  if 0xC2 ≤ n ∧ n ≤ 0xDF then some ⟨n % 32, 1, 0x80, 0xBF⟩
  else if n = 0xE0 then some ⟨n % 16, 2, 0xA0, 0xBF⟩
  else if n = 0xED then some ⟨n % 16, 2, 0x80, 0x9F⟩
  else if 0xE1 ≤ n ∧ n ≤ 0xEF then some ⟨n % 16, 2, 0x80, 0xBF⟩
  else if n = 0xF0 then some ⟨n % 8, 3, 0x90, 0xBF⟩
  else if 0xF1 ≤ n ∧ n ≤ 0xF3 then some ⟨n % 8, 3, 0x80, 0xBF⟩
  else if n = 0xF4 then some ⟨n % 8, 3, 0x80, 0x8F⟩
  else none

def first (b : UInt8) : List Char × Option Pending :=
  if b.toNat < 0x80 then ([Char.ofNat b.toNat], none)
  else
    match lead? b with
    | some p => ([], some p)
    | none => ([replacement], none)

def next (p : Pending) (b : UInt8) : List Char × Option Pending :=
  if p.low ≤ b.toNat ∧ b.toNat ≤ p.high then
    let bits := p.bits * 64 + b.toNat % 64
    if p.missing ≤ 1 then ([Char.ofNat bits], none)
    else ([], some ⟨bits, p.missing - 1, 0x80, 0xBF⟩)
  else
    let (cs, q) := first b
    (replacement :: cs, q)

def decodeFrom (p : Option Pending) : List UInt8 → List Char
  | [] => if p.isSome then [replacement] else []
  | b :: rest =>
      let (cs, q) := match p with
        | none => first b
        | some p => next p b
      cs ++ decodeFrom q rest

def decode (bytes : List UInt8) : List Char :=
  decodeFrom none bytes

/-! ## Reading for pattern search -/

/-- The bits that a first byte gives. -/
def leadBits (b : UInt8) : Nat :=
  let n := b.toNat
  if n < 0xE0 then n % 32
  else if n < 0xF0 then n % 16
  else if n < 0xF8 then n % 8
  else if n < 0xFC then n % 4
  else if n < 0xFE then n % 2
  else 0

/-- A number that may stand for no character is U+FFFD. -/
def settled (n : Nat) : Nat :=
  if n < 0x80 ∨ n / 0x800 = 0x1B ∨ n / 2 = 0x7FFF then 0xFFFD else n

/-- The numbers of bytes after a first byte that gave some bits. -/
def codesFrom (p : Option Nat) : List UInt8 → List Nat
  | [] => (p.map settled).toList
  | b :: rest =>
      match p with
      | some n =>
          if isContinuation b then codesFrom (some ((n * 64 + b.toNat % 64) % 2 ^ 32)) rest
          else if b.toNat < 0xC0 then settled n :: b.toNat :: codesFrom none rest
          else settled n :: codesFrom (some (leadBits b)) rest
      | none =>
          if b.toNat < 0xC0 then b.toNat :: codesFrom none rest
          else codesFrom (some (leadBits b)) rest

def codes (bytes : List UInt8) : List Nat :=
  codesFrom none bytes

end Utf8
end TableSearch
