/-
White space and trimming.
-/

namespace TableSearch
namespace Text

/-- The characters with the Unicode property White_Space.  Zero-width space, the
byte-order mark and the information separators U+001C to U+001F lack it. -/
def isSpace (c : Char) : Bool :=
  let n := c.toNat
  (9 ≤ n && n ≤ 13) || n == 0x20 || n == 0x85 || n == 0xA0 || n == 0x1680 ||
    (0x2000 ≤ n && n ≤ 0x200A) || n == 0x2028 || n == 0x2029 || n == 0x202F ||
    n == 0x205F || n == 0x3000

def trimStart (cs : List Char) : List Char :=
  cs.dropWhile isSpace

def trimEnd (cs : List Char) : List Char :=
  (trimStart cs.reverse).reverse

def trimChars (cs : List Char) : List Char :=
  trimEnd (trimStart cs)

def trim (s : String) : String :=
  String.ofList (trimChars s.toList)

/-- A text is blank when it holds white space only, or nothing. -/
def isBlank (s : String) : Bool :=
  s.toList.all isSpace

theorem trimStart_eq_nil {cs : List Char} :
    trimStart cs = [] ↔ cs.all isSpace = true := by
  induction cs with
  | nil => simp [trimStart]
  | cons c rest ih =>
    have hcons : trimStart (c :: rest) = if isSpace c then trimStart rest else c :: rest :=
      List.dropWhile_cons
    rw [hcons, List.all_cons]
    cases isSpace c with
    | false => simp
    | true => exact ih

theorem all_trimStart {cs : List Char} :
    (trimStart cs).all isSpace = cs.all isSpace := by
  induction cs with
  | nil => rfl
  | cons c rest ih =>
    cases hc : isSpace c
    · simp [trimStart, hc]
    · simpa [trimStart, hc] using ih

theorem trimChars_eq_nil {cs : List Char} :
    trimChars cs = [] ↔ cs.all isSpace = true := by
  rw [trimChars, trimEnd, List.reverse_eq_nil_iff, trimStart_eq_nil, List.all_reverse,
    all_trimStart]

theorem trim_eq_empty {s : String} : trim s = "" ↔ isBlank s = true := by
  rw [trim, isBlank, ← trimChars_eq_nil]
  constructor
  · intro h
    have := congrArg String.toList h
    simpa using this
  · intro h
    rw [h]

end Text
end TableSearch
