/-
The tokens of a JSON tree in its compact form.

A number ends where the text ends or where a comma or a closing bracket follows, so a tree
is taken together with a rest that `Ends` its numbers.  The result is `all?_compact`: the
tokens of the compact form of a tree are `tokens`.
-/
import TableSearch.Json.Node
import TableSearch.Proofs.Json.Number

namespace TableSearch
namespace Json

variable {c : Char} {cs rest : List Char} {n : Int}

/-! ## Strings -/

namespace Token

def part (c : Char) : Part :=
  if c.toNat < 32 ∧ c.toNat ∉ [8, 9, 10, 12, 13] then .unit c.toNat else .char c

theorem hexUnit?_digit :
    ∀ n < 32, hexUnit? '0' '0' (Hex.digit (n / 16)) (Hex.digit (n % 16)) = some n := by
  decide

theorem stringBody_plain (hquote : c ≠ '"') (hslash : c ≠ '\\') (h : 32 ≤ c.toNat) :
    stringBody (c :: cs) = prepend (.char c) (stringBody cs) := by
  rw [stringBody.eq_def]
  split
  · next heq => cases heq
  · next heq => exact absurd (List.cons.inj heq).1 hquote
  · next heq => exact absurd (List.cons.inj heq).1 hslash
  · next heq => exact absurd (List.cons.inj heq).1 hslash
  · next heq =>
    obtain ⟨rfl, rfl⟩ := List.cons.inj heq
    rw [if_neg (by omega)]

theorem stringBody_unit (h : c.toNat < 32) :
    stringBody ('\\' :: 'u' :: '0' :: '0' :: Hex.digit (c.toNat / 16) ::
      Hex.digit (c.toNat % 16) :: cs) = prepend (.unit c.toNat) (stringBody cs) := by
  rw [stringBody, hexUnit?_digit _ h]

theorem stringBody_escapeChar (c : Char) (cs : List Char) :
    stringBody (escapeChar c ++ cs) = prepend (part c) (stringBody cs) := by
  unfold escapeChar
  split_ifs with hquote hslash hback htab hline hfeed hreturn hcontrol
  · subst hquote
    rfl
  · subst hslash
    rfl
  · obtain rfl : c = Char.ofNat 8 := by rw [← hback, Char.ofNat_toNat]
    rfl
  · subst htab
    rfl
  · subst hline
    rfl
  · obtain rfl : c = Char.ofNat 12 := by rw [← hfeed, Char.ofNat_toNat]
    rfl
  · subst hreturn
    rfl
  · have hpart : part c = .unit c.toNat := by
      have hspecial : c.toNat ∉ [8, 9, 10, 12, 13] := by
        simp only [List.mem_cons, List.not_mem_nil, or_false, not_or]
        refine ⟨hback, fun h => htab ?_, fun h => hline ?_, hfeed, fun h => hreturn ?_⟩
        all_goals rw [← Char.ofNat_toNat c, h]
      rw [part, if_pos ⟨hcontrol, hspecial⟩]
    rw [hpart]
    exact stringBody_unit hcontrol
  · have hpart : part c = .char c := by
      rw [part, if_neg fun h => hcontrol h.1]
    rw [hpart]
    exact stringBody_plain hquote hslash (Nat.not_lt.mp hcontrol)

theorem textOf?_part (c : Char) (ps : List Part) :
    textOf? (part c :: ps) = (textOf? ps).map (c :: ·) := by
  unfold part
  split
  · next h =>
    have hhigh : isHighSurrogate c.toNat = false := by
      simp only [isHighSurrogate, Bool.and_eq_false_iff, decide_eq_false_iff_not]
      omega
    have hlow : isLowSurrogate c.toNat = false := by
      simp only [isLowSurrogate, Bool.and_eq_false_iff, decide_eq_false_iff_not]
      omega
    rw [textOf?.eq_def]
    split
    · next heq => cases heq
    · next heq => cases (List.cons.inj heq).1
    · next heq =>
      cases heq
      rw [hhigh, hlow, Char.ofNat_toNat]
      rfl
    · next heq =>
      cases heq
      rw [hhigh, hlow, Char.ofNat_toNat]
      rfl
  · rw [textOf?]

/-- A quoted text is read up to its closing quote. -/
theorem stringBody_quoted (s rest : List Char) :
    stringBody (s.flatMap escapeChar ++ '"' :: rest) = some (s.map part, rest) := by
  induction s with
  | nil => rfl
  | cons c s ih =>
    rw [List.flatMap_cons, List.append_assoc, stringBody_escapeChar, ih]
    rfl

/-- Nothing of a quoted text is lost, control characters, quotes and backslashes included. -/
theorem textOf?_map_part (s : List Char) : textOf? (s.map part) = some s := by
  induction s with
  | nil => rfl
  | cons c s ih =>
    rw [List.map_cons, textOf?_part, ih]
    rfl

theorem first?_quotedChars (s : String) (rest : List Char) :
    first? (quotedChars s ++ rest) = some (.string (some s), rest) := by
  have hbody : quotedChars s ++ rest = '"' :: (s.toList.flatMap escapeChar ++ '"' :: rest) := by
    simp [quotedChars]
  rw [hbody]
  show (stringBody (s.toList.flatMap escapeChar ++ '"' :: rest)).map _ = _
  rw [stringBody_quoted]
  show some (string ((textOf? (s.toList.map part)).map String.ofList), rest) = _
  rw [textOf?_map_part, Option.map_some, String.ofList_toList]

/-! ## Numbers -/

/-- A number begins with a digit or a minus sign, and no other token does. -/
theorem first?_number {t : Numeral} (h : numeral cs = some (t, rest)) :
    first? cs = some (.number (Number.ofNumeral t), rest) := by
  unfold first?
  split
  case h_11 => rw [h, Option.map_some]
  all_goals cases h

/-- White space begins no token. -/
theorem isSpace_of_first? {t : Token} (h : first? (c :: cs) = some (t, rest)) :
    isSpace c = false := by
  cases hspace : isSpace c with
  | false => rfl
  | true =>
    simp only [isSpace, Bool.or_eq_true, beq_iff_eq] at hspace
    rcases hspace with ((rfl | rfl) | rfl) | rfl <;> cases h

theorem all?_first {t : Token} (h : first? cs = some (t, rest)) :
    all? cs = (all? rest).map (t :: ·) := by
  cases cs with
  | nil => cases h
  | cons c cs =>
    rw [all?, if_neg (by rw [isSpace_of_first? h]; decide)]
    split
    · next hnone => cases h.symm.trans hnone
    · next hsome =>
      cases h.symm.trans hsome
      rfl

end Token

/-! ## Numbers of a tree -/

def Spelling.ofNat (n : ℕ) : Spelling where
  whole := Nat.toDigits 10 n
  fraction := none
  exponent := none

theorem Spelling.sound_ofNat (n : ℕ) : (Spelling.ofNat n).Sound where
  whole := ⟨Numeral.toDigits_ne_nil n, Numeral.isDigit_toDigits⟩
  leading _ _ _ h := Numeral.toDigits_leading h
  fraction _ h := by cases h
  exponent _ h := by cases h

def intNumeral (n : ℤ) : Numeral :=
  (Spelling.ofNat n.natAbs).numeral (decide (n < 0))

theorem first?_intChars (n : ℤ) (h : Ends rest) :
    Token.first? (intChars n ++ rest) = some (.number (Number.ofNumeral (intNumeral n)), rest) := by
  have hchars : intChars n =
      (if decide (n < 0) then ['-'] else []) ++ (Spelling.ofNat n.natAbs).chars := by
    simp [intChars, Spelling.chars, Spelling.fractionChars, Spelling.exponentChars, Spelling.ofNat]
  rw [hchars]
  exact Token.first?_number (Spelling.numeral_append (Spelling.sound_ofNat _) h _)

/-- Whole numbers of 64 bits are read as such. -/
theorem ofNumeral_intNumeral (hlow : -2 ^ 63 ≤ n) (hhigh : n < 2 ^ 63) :
    Number.ofNumeral (intNumeral n) = some (.int n) := by
  have hsignificand : (intNumeral n).significand = n.natAbs := by
    show Numeral.digitsValue (Numeral.digits (Nat.toDigits 10 n.natAbs) ++ []) = _
    rw [List.append_nil, Numeral.digitsValue_toDigits]
  rw [Number.ofNumeral_whole rfl rfl (by rw [hsignificand, Number.largestSignificand]; omega),
    hsignificand]
  show some (Number.ofWhole (decide (n < 0)) n.natAbs) = _
  rw [Number.ofWhole_natAbs hlow hhigh]

def floatToken (x : Double) : Token :=
  if x.isFinite then .number (some (.float x.reread)) else .null

theorem first?_floatChars (x : Double) (h : Ends rest) :
    Token.first? (Layout.json.chars x ++ rest) = some (floatToken x, rest) := by
  cases hfinite : x.isFinite with
  | true =>
    obtain ⟨t, hread, ht, _⟩ := Double.numeral_chars hfinite
    rw [Token.first?_number (hread rest h), ht, floatToken, if_pos hfinite]
  | false =>
    have hchars : Layout.json.chars x = ['n', 'u', 'l', 'l'] := by
      unfold Double.isFinite at hfinite
      unfold Layout.chars
      cases hreading : x.reading with
      | nan => rfl
      | infinite negative => cases negative <;> rfl
      | finite negative m e =>
        rw [hreading] at hfinite
        cases hfinite
    rw [hchars, floatToken, if_neg (by rw [hfinite]; decide)]
    rfl

/-! ## Trees -/

namespace Node

mutual

def tokens : Node → List Token
  | .null => [.null]
  | .bool b => [.bool b]
  | .int n => [.number (Number.ofNumeral (intNumeral n))]
  | .float x => [floatToken x]
  | .string s => [.string (some s)]
  | .array items => .openArray :: itemTokens items ++ [.closeArray]
  | .object entries => .openObject :: entryTokens entries ++ [.closeObject]

def itemTokens : List Node → List Token
  | [] => []
  | [item] => item.tokens
  | item :: rest => item.tokens ++ .comma :: itemTokens rest

def entryTokens : List (String × Node) → List Token
  | [] => []
  | [(key, value)] => .string (some key) :: .colon :: value.tokens
  | (key, value) :: rest =>
      .string (some key) :: .colon :: value.tokens ++ .comma :: entryTokens rest

end

mutual

/-- The compact form of a tree has its tokens. -/
theorem all?_compactChars (n : Node) {rest : List Char} (h : Ends rest) :
    Token.all? (n.compactChars ++ rest) = (Token.all? rest).map (n.tokens ++ ·) := by
  match n with
  | .null => exact Token.all?_first rfl
  | .bool b => cases b <;> exact Token.all?_first rfl
  | .int n => exact Token.all?_first (first?_intChars n h)
  | .float x => exact Token.all?_first (first?_floatChars x h)
  | .string s => exact Token.all?_first (Token.first?_quotedChars s rest)
  | .array items =>
    have hchars : (array items).compactChars ++ rest =
        '[' :: (compactItems items ++ ']' :: rest) := by simp [compactChars]
    rw [hchars, Token.all?_first (t := .openArray) rfl, all?_compactItems items ends_bracket,
      Token.all?_first (t := .closeArray) rfl]
    cases Token.all? rest <;> simp [tokens]
  | .object entries =>
    have hchars : (object entries).compactChars ++ rest =
        '\x7b' :: (compactEntries entries ++ '\x7d' :: rest) := by simp [compactChars]
    rw [hchars, Token.all?_first (t := .openObject) rfl, all?_compactEntries entries ends_brace,
      Token.all?_first (t := .closeObject) rfl]
    cases Token.all? rest <;> simp [tokens]

theorem all?_compactItems (items : List Node) {rest : List Char} (h : Ends rest) :
    Token.all? (compactItems items ++ rest) = (Token.all? rest).map (itemTokens items ++ ·) := by
  match items with
  | [] => exact Option.map_id'.symm
  | [item] => exact all?_compactChars item h
  | item :: next :: items =>
    have hchars : compactItems (item :: next :: items) ++ rest =
        item.compactChars ++ ',' :: (compactItems (next :: items) ++ rest) := by
      simp [compactItems]
    rw [hchars, all?_compactChars item ends_comma, Token.all?_first (t := .comma) rfl,
      all?_compactItems (next :: items) h]
    cases Token.all? rest <;> simp [itemTokens]

theorem all?_compactEntries (entries : List (String × Node)) {rest : List Char} (h : Ends rest) :
    Token.all? (compactEntries entries ++ rest) =
      (Token.all? rest).map (entryTokens entries ++ ·) := by
  match entries with
  | [] => exact Option.map_id'.symm
  | [(key, value)] =>
    have hchars : compactEntries [(key, value)] ++ rest =
        quotedChars key ++ ':' :: (value.compactChars ++ rest) := by
      simp [compactEntries]
    rw [hchars, Token.all?_first (Token.first?_quotedChars key _),
      Token.all?_first (t := .colon) rfl, all?_compactChars value h]
    cases Token.all? rest <;> simp [entryTokens]
  | (key, value) :: next :: entries =>
    have hchars : compactEntries ((key, value) :: next :: entries) ++ rest =
        quotedChars key ++ ':' :: (value.compactChars ++
          ',' :: (compactEntries (next :: entries) ++ rest)) := by
      simp [compactEntries]
    rw [hchars, Token.all?_first (Token.first?_quotedChars key _),
      Token.all?_first (t := .colon) rfl, all?_compactChars value ends_comma,
      Token.all?_first (t := .comma) rfl, all?_compactEntries (next :: entries) h]
    cases Token.all? rest <;> simp [entryTokens]

end

theorem all?_compact (n : Node) : Token.all? n.compact.toList = some n.tokens := by
  have htokens := all?_compactChars n ends_nil
  rw [List.append_nil, Token.all?, Option.map_some, List.append_nil] at htokens
  rw [compact, String.toList_ofList, htokens]

end Node
end Json
end TableSearch
