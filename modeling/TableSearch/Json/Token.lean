/-
The tokens of JSON text.

White space is space, tab, line feed and carriage return.  A string may hold no
control character below U+0020 as it is.  Numbers out of range and strings with half
of a surrogate pair are tokens too, but without a value.
-/
import TableSearch.Json.Number
import TableSearch.Text.Hex

namespace TableSearch
namespace Json

inductive Token where
  | openArray
  | closeArray
  | openObject
  | closeObject
  | comma
  | colon
  | null
  | bool (b : Bool)
  /-- A number, unless it is out of range. -/
  | number (n : Option Number)
  /-- A string, unless half of a surrogate pair stands alone in it. -/
  | string (s : Option String)

namespace Token

open Numeral (spanDigits digitsValue length_spanDigits)

/-! ## Strings -/

def hexUnit? (a b c d : Char) : Option Nat := do
  let a ← Hex.value? a
  let b ← Hex.value? b
  let c ← Hex.value? c
  let d ← Hex.value? d
  return ((a * 16 + b) * 16 + c) * 16 + d

def isHighSurrogate (n : Nat) : Bool :=
  0xD800 ≤ n && n < 0xDC00

def isLowSurrogate (n : Nat) : Bool :=
  0xDC00 ≤ n && n < 0xE000

def pairChar (high low : Nat) : Char :=
  Char.ofNat (0x10000 + (high - 0xD800) * 0x400 + (low - 0xDC00))

/-- The character after a backslash, `u` apart. -/
def escaped? (c : Char) : Option Char :=
  match c with
  | '"' => some '"'
  | '\\' => some '\\'
  | '/' => some '/'
  | 'b' => some (Char.ofNat 8)
  | 'f' => some (Char.ofNat 12)
  | 'n' => some '\n'
  | 'r' => some '\r'
  | 't' => some '\t'
  | _ => none

/-- A part of a string as written: a character, or an escaped UTF-16 unit. -/
inductive Part where
  | char (c : Char)
  | unit (n : Nat)

/-- The text of the parts; none when half of a surrogate pair stands alone. -/
def textOf? : List Part → Option (List Char)
  | [] => some []
  | .char c :: rest => (textOf? rest).map (c :: ·)
  | .unit high :: .unit low :: rest =>
      if isHighSurrogate high then
        if isLowSurrogate low then (textOf? rest).map (pairChar high low :: ·) else none
      else if isLowSurrogate high then none
      else (textOf? (.unit low :: rest)).map (Char.ofNat high :: ·)
  | .unit n :: rest =>
      if isHighSurrogate n || isLowSurrogate n then none
      else (textOf? rest).map (Char.ofNat n :: ·)

/-- Put a part before those of a string that was read. -/
def prepend (p : Part) (r : Option (List Part × List Char)) : Option (List Part × List Char) :=
  r.map fun (ps, rest) => (p :: ps, rest)

/-- The parts up to the closing quote, and what follows it. -/
def stringBody : List Char → Option (List Part × List Char)
  | [] => none
  | '"' :: rest => some ([], rest)
  | '\\' :: 'u' :: a :: b :: c :: d :: rest =>
      match hexUnit? a b c d with
      | none => none
      | some n => prepend (.unit n) (stringBody rest)
  | '\\' :: c :: rest =>
      match escaped? c with
      | none => none
      | some x => prepend (.char x) (stringBody rest)
  | c :: rest => if c.toNat < 32 then none else prepend (.char c) (stringBody rest)

/-! ## Numbers -/

def fractionPart : List Char → Option (Option (List Nat) × List Char)
  | '.' :: rest =>
      match spanDigits rest with
      | ([], _) => none
      | (ds, after) => some (some ds, after)
  | cs => some (none, cs)

def exponentDigits (negative : Bool) (cs : List Char) : Option (Option Int × List Char) :=
  match spanDigits cs with
  | ([], _) => none
  | (ds, after) =>
      some (some (if negative then -(digitsValue ds : Int) else digitsValue ds), after)

def unsignedExponent : List Char → Option (Option Int × List Char)
  | '+' :: rest => exponentDigits false rest
  | '-' :: rest => exponentDigits true rest
  | cs => exponentDigits false cs

def exponentPart : List Char → Option (Option Int × List Char)
  | 'e' :: rest => unsignedExponent rest
  | 'E' :: rest => unsignedExponent rest
  | cs => some (none, cs)

/-- A number without its sign.  A leading zero stands alone. -/
def unsignedNumber (negative : Bool) (cs : List Char) : Option (Numeral × List Char) :=
  match spanDigits cs with
  | ([], _) => none
  | (0 :: _ :: _, _) => none
  | (whole, afterWhole) => do
      let (fraction, afterFraction) ← fractionPart afterWhole
      let (exponent, after) ← exponentPart afterFraction
      return ({ negative, whole, fraction, exponent }, after)

def numeral : List Char → Option (Numeral × List Char)
  | '-' :: rest => unsignedNumber true rest
  | cs => unsignedNumber false cs

/-! ## All tokens -/

def isSpace (c : Char) : Bool :=
  c == ' ' || c == '\t' || c == '\n' || c == '\r'

/-- The first token of a text that begins with no white space, and the rest. -/
def first? : List Char → Option (Token × List Char)
  | '[' :: rest => some (.openArray, rest)
  | ']' :: rest => some (.closeArray, rest)
  | '\x7b' :: rest => some (.openObject, rest)
  | '\x7d' :: rest => some (.closeObject, rest)
  | ',' :: rest => some (.comma, rest)
  | ':' :: rest => some (.colon, rest)
  | 'n' :: 'u' :: 'l' :: 'l' :: rest => some (.null, rest)
  | 't' :: 'r' :: 'u' :: 'e' :: rest => some (.bool true, rest)
  | 'f' :: 'a' :: 'l' :: 's' :: 'e' :: rest => some (.bool false, rest)
  | '"' :: rest =>
      (stringBody rest).map fun (ps, after) => (.string ((textOf? ps).map String.ofList), after)
  | cs => (numeral cs).map fun (t, after) => (.number (Number.ofNumeral t), after)

/-! ## Every token is a part of the text -/

theorem length_prepend {p : Part} {r : Option (List Part × List Char)} {ps : List Part}
    {after : List Char} (h : prepend p r = some (ps, after)) : ∃ qs, r = some (qs, after) := by
  simp only [prepend, Option.map_eq_some_iff, Prod.mk.injEq, Prod.exists] at h
  obtain ⟨qs, after', hr, _, rfl⟩ := h
  exact ⟨qs, hr⟩

theorem length_stringBody {cs after : List Char} {ps : List Part}
    (h : stringBody cs = some (ps, after)) : after.length < cs.length := by
  fun_induction stringBody cs generalizing ps with
  | case1 => simp at h
  | case2 rest =>
    simp only [Option.some.injEq, Prod.mk.injEq] at h
    simp [← h.2]
  | case3 => simp at h
  | case4 a b c d rest n _ ih =>
    obtain ⟨qs, hr⟩ := length_prepend h
    have := ih hr
    simp only [List.length_cons]
    omega
  | case5 => simp at h
  | case6 c rest _ x _ ih =>
    obtain ⟨qs, hr⟩ := length_prepend h
    have := ih hr
    simp only [List.length_cons]
    omega
  | case7 => simp at h
  | case8 c rest _ _ _ _ ih =>
    obtain ⟨qs, hr⟩ := length_prepend h
    have := ih hr
    simp only [List.length_cons]
    omega

theorem length_fractionPart {cs after : List Char} {f : Option (List Nat)}
    (h : fractionPart cs = some (f, after)) : after.length ≤ cs.length := by
  unfold fractionPart at h
  split at h
  · split at h
    · simp at h
    · next hs =>
      have := length_spanDigits hs
      simp only [Option.some.injEq, Prod.mk.injEq] at h
      rw [← h.2]
      simp only [List.length_cons]
      omega
  · simp only [Option.some.injEq, Prod.mk.injEq] at h
    simp [h.2]

theorem length_exponentDigits {negative : Bool} {cs after : List Char} {e : Option Int}
    (h : exponentDigits negative cs = some (e, after)) : after.length ≤ cs.length := by
  unfold exponentDigits at h
  split at h
  · simp at h
  · next hs =>
    have := length_spanDigits hs
    simp only [Option.some.injEq, Prod.mk.injEq] at h
    rw [← h.2]
    omega

theorem length_unsignedExponent {cs after : List Char} {e : Option Int}
    (h : unsignedExponent cs = some (e, after)) : after.length ≤ cs.length := by
  unfold unsignedExponent at h
  split at h
  · have := length_exponentDigits h
    simp only [List.length_cons]
    omega
  · have := length_exponentDigits h
    simp only [List.length_cons]
    omega
  · exact length_exponentDigits h

theorem length_exponentPart {cs after : List Char} {e : Option Int}
    (h : exponentPart cs = some (e, after)) : after.length ≤ cs.length := by
  unfold exponentPart at h
  split at h
  · have := length_unsignedExponent h
    simp only [List.length_cons]
    omega
  · have := length_unsignedExponent h
    simp only [List.length_cons]
    omega
  · simp only [Option.some.injEq, Prod.mk.injEq] at h
    simp [h.2]

theorem length_unsignedNumber {negative : Bool} {cs after : List Char} {t : Numeral}
    (h : unsignedNumber negative cs = some (t, after)) : after.length < cs.length := by
  unfold unsignedNumber at h
  split at h
  · simp at h
  · simp at h
  · next whole afterWhole hne _ hs =>
    have h1 := length_spanDigits hs
    obtain ⟨⟨f, af⟩, hf, h⟩ := Option.bind_eq_some_iff.mp h
    obtain ⟨⟨e, ae⟩, he, h⟩ := Option.bind_eq_some_iff.mp h
    simp only [pure, Option.some.injEq, Prod.mk.injEq] at h
    obtain ⟨_, rfl⟩ := h
    have h2 := length_fractionPart hf
    have h3 := length_exponentPart he
    have h4 : 0 < whole.length := by
      cases whole with
      | nil => exact (hne rfl).elim
      | cons => simp
    omega

theorem length_numeral {cs after : List Char} {t : Numeral}
    (h : numeral cs = some (t, after)) : after.length < cs.length := by
  unfold numeral at h
  split at h
  · have := length_unsignedNumber h
    simp only [List.length_cons]
    omega
  · exact length_unsignedNumber h

theorem length_first? {cs after : List Char} {t : Token} (h : first? cs = some (t, after)) :
    after.length < cs.length := by
  unfold first? at h
  split at h
  case h_10 rest =>
    simp only [Option.map_eq_some_iff, Prod.exists, Prod.mk.injEq] at h
    obtain ⟨s, a, hs, _, rfl⟩ := h
    have := length_stringBody hs
    simp only [List.length_cons]
    omega
  case h_11 =>
    simp only [Option.map_eq_some_iff, Prod.exists, Prod.mk.injEq] at h
    obtain ⟨text, a, ht, _, rfl⟩ := h
    exact length_numeral ht
  all_goals
    simp only [Option.some.injEq, Prod.mk.injEq] at h
    rw [← h.2]
    simp only [List.length_cons]
    omega

/-- All tokens of a text; none when a part of it is no token. -/
def all? (cs : List Char) : Option (List Token) :=
  match cs with
  | [] => some []
  | c :: rest =>
      if isSpace c then all? rest
      else
        match _h : first? (c :: rest) with
        | none => none
        | some (t, after) => (all? after).map (t :: ·)
termination_by cs.length
decreasing_by
  · simp
  · exact length_first? _h

end Token
end Json
end TableSearch
