/-
Numbers as they are spelled, and what the reader makes of the spelling.

A `Spelling` has the characters of the parts of a number.  When the parts are sound and what
follows `Ends` the number, the reader finds exactly these parts (`Spelling.numeral_append`).
Each of the four forms in which the JSON layout writes a decimal is such a spelling, and its
numeral stands for the decimal (`Spelling.exists_spells`).
-/
import TableSearch.Double.Layout
import TableSearch.Json.Token
import TableSearch.Proofs.Double.Shortest

namespace TableSearch

/-! ## Digits -/

namespace Numeral

def digits (cs : List Char) : List ℕ :=
  cs.map fun c => c.toNat - 48

def Broken (cs : List Char) : Prop :=
  ∀ c ∈ cs.head?, c.isDigit = false

theorem spanDigits_append {cs rest : List Char} (hcs : ∀ c ∈ cs, c.isDigit = true)
    (hrest : Broken rest) : spanDigits (cs ++ rest) = (digits cs, rest) := by
  induction cs with
  | nil =>
    cases rest with
    | nil => rfl
    | cons c rest =>
      have hc : c.isDigit = false := hrest c rfl
      simp [spanDigits, hc, digits]
  | cons c cs ih =>
    have hc := hcs c List.mem_cons_self
    rw [List.cons_append, spanDigits, if_pos hc,
      ih fun d hd => hcs d (List.mem_cons_of_mem c hd)]
    rfl

theorem digits_append (cs ds : List Char) : digits (cs ++ ds) = digits cs ++ digits ds :=
  List.map_append

theorem length_digits (cs : List Char) : (digits cs).length = cs.length :=
  List.length_map _

theorem digitsValue_append (as bs : List ℕ) :
    digitsValue (as ++ bs) = digitsValue as * 10 ^ bs.length + digitsValue bs := by
  unfold digitsValue
  rw [List.foldl_append]
  generalize as.foldl (fun n d => n * 10 + d) 0 = n
  induction bs generalizing n with
  | nil => simp
  | cons b rest ih =>
    rw [List.foldl_cons, List.foldl_cons, ih, ih (0 * 10 + b), List.length_cons, Nat.pow_succ]
    ring

theorem digitsValue_cons (d : ℕ) (ds : List ℕ) :
    digitsValue (d :: ds) = d * 10 ^ ds.length + digitsValue ds := by
  have hsingle : digitsValue [d] = d := by simp [digitsValue]
  rw [← List.singleton_append, digitsValue_append, hsingle]

theorem digitsValue_zeros (n : ℕ) : digitsValue (digits (Layout.zeros n)) = 0 := by
  induction n with
  | zero => rfl
  | succ n ih =>
    have hsucc : digits (Layout.zeros (n + 1)) = 0 :: digits (Layout.zeros n) := rfl
    rw [hsucc, digitsValue_cons, ih, Nat.zero_mul]

theorem digitsValue_lt {cs : List Char} (h : ∀ c ∈ cs, c.isDigit = true) :
    digitsValue (digits cs) < 10 ^ cs.length := by
  induction cs with
  | nil => decide
  | cons c cs ih =>
    have hrest := ih fun d hd => h d (List.mem_cons_of_mem c hd)
    have hc : c.toNat - 48 ≤ 9 := by
      have hdigit := Char.isDigit_iff_toNat.mp (h c List.mem_cons_self)
      have hnine : '9'.toNat = 57 := rfl
      omega
    have hcons : digits (c :: cs) = (c.toNat - 48) :: digits cs := rfl
    rw [hcons, digitsValue_cons, length_digits, List.length_cons, Nat.pow_succ]
    have hmul := Nat.mul_le_mul_right (10 ^ cs.length) hc
    omega

theorem digitsValue_toDigits (n : ℕ) : digitsValue (digits (Nat.toDigits 10 n)) = n := by
  have hfold : (Nat.toDigits 10 n).foldl (fun n c => 10 * n + (c.toNat - 48)) 0 = n :=
    Nat.ofDigitChars_toDigits (by decide) (by decide)
  rw [digitsValue, digits, List.foldl_map]
  simpa only [Nat.mul_comm 10] using hfold

theorem isDigit_toDigits {n : ℕ} : ∀ c ∈ Nat.toDigits 10 n, c.isDigit = true := fun _ hc =>
  Nat.isDigit_of_mem_toDigits (by decide) (by decide) hc

theorem isDigit_zeros {n : ℕ} : ∀ c ∈ Layout.zeros n, c.isDigit = true := by
  intro c hc
  rw [List.eq_of_mem_replicate hc]
  decide

/-- Only zero itself is spelled with a zero in front. -/
theorem toDigits_leading {n : ℕ} {c d : Char} {cs : List Char}
    (h : Nat.toDigits 10 n = c :: d :: cs) : c.toNat - 48 ≠ 0 := by
  intro hzero
  have hvalue := digitsValue_toDigits n
  have hcons : digits (c :: d :: cs) = (c.toNat - 48) :: digits (d :: cs) := rfl
  rw [h, hcons, hzero, digitsValue_cons, Nat.zero_mul, Nat.zero_add] at hvalue
  have hdigits : ∀ x ∈ d :: cs, x.isDigit = true := fun x hx =>
    isDigit_toDigits x (h ▸ List.mem_cons_of_mem c hx)
  have hlt := digitsValue_lt hdigits
  rw [hvalue] at hlt
  have hlength := (Nat.length_toDigits_le_iff (b := 10) (by decide) (Nat.succ_pos _)).mpr hlt
  rw [h, List.length_cons] at hlength
  exact absurd hlength (Nat.not_succ_le_self _)

/-- A positive number is spelled without a zero in front. -/
theorem toDigits_head {n : ℕ} {c : Char} {cs : List Char} (hn : 0 < n)
    (h : Nat.toDigits 10 n = c :: cs) : c.toNat - 48 ≠ 0 := by
  cases cs with
  | nil =>
    have hvalue := digitsValue_toDigits n
    have hsingle : digits [c] = [c.toNat - 48] := rfl
    rw [h, hsingle, digitsValue_cons] at hvalue
    simp only [List.length_nil, digitsValue, List.foldl_nil] at hvalue
    omega
  | cons d ds => exact toDigits_leading h

theorem toDigits_ne_nil (n : ℕ) : Nat.toDigits 10 n ≠ [] :=
  List.ne_nil_of_length_pos Nat.length_toDigits_pos

/-! ## The number of a numeral -/

def significand (t : Numeral) : ℕ :=
  digitsValue (t.whole ++ t.fraction.getD [])

def power (t : Numeral) : ℤ :=
  t.exponent.getD 0 - (t.fraction.getD []).length

def decimal (t : Numeral) : Decimal where
  digits := t.significand
  exponent := t.power

end Numeral

/-! ## Numbers with their parts -/

namespace Json

open Numeral (digits digitsValue spanDigits spanDigits_append Broken)

/-- What may follow a number: nothing, the end of an item or an entry, or a new line. -/
def Ends (cs : List Char) : Prop :=
  ∀ c ∈ cs.head?, c = ',' ∨ c = ']' ∨ c = '\x7d' ∨ c = '\n'

theorem ends_nil : Ends [] := fun _ h => nomatch h

theorem ends_comma {cs : List Char} : Ends (',' :: cs) := fun _ h =>
  .inl (Option.some.inj h).symm

theorem ends_bracket {cs : List Char} : Ends (']' :: cs) := fun _ h =>
  .inr (.inl (Option.some.inj h).symm)

theorem ends_brace {cs : List Char} : Ends ('\x7d' :: cs) := fun _ h =>
  .inr (.inr (.inl (Option.some.inj h).symm))

theorem ends_line {cs : List Char} : Ends ('\n' :: cs) := fun _ h =>
  .inr (.inr (.inr (Option.some.inj h).symm))

/-- The parts of a number without its sign.  An exponent has a sign and digits. -/
structure Spelling where
  whole : List Char
  fraction : Option (List Char)
  exponent : Option (Bool × List Char)

namespace Spelling

def fractionChars (s : Spelling) : List Char :=
  match s.fraction with
  | some cs => '.' :: cs
  | none => []

def exponentChars (s : Spelling) : List Char :=
  match s.exponent with
  | some (negative, cs) => 'e' :: (if negative then '-' else '+') :: cs
  | none => []

def chars (s : Spelling) : List Char :=
  s.whole ++ (s.fractionChars ++ s.exponentChars)

def numeral (s : Spelling) (negative : Bool) : Numeral where
  negative
  whole := digits s.whole
  fraction := s.fraction.map digits
  exponent := s.exponent.map fun e =>
    if e.1 then -(digitsValue (digits e.2) : ℤ) else digitsValue (digits e.2)

/-- Every part has digits, and the whole part no zero in front. -/
structure Sound (s : Spelling) : Prop where
  whole : s.whole ≠ [] ∧ ∀ c ∈ s.whole, c.isDigit = true
  leading : ∀ c d cs, s.whole = c :: d :: cs → c.toNat - 48 ≠ 0
  fraction : ∀ cs ∈ s.fraction, cs ≠ [] ∧ ∀ c ∈ cs, c.isDigit = true
  exponent : ∀ e ∈ s.exponent, e.2 ≠ [] ∧ ∀ c ∈ e.2, c.isDigit = true

variable {s : Spelling} {rest : List Char}

theorem broken_of_ends (h : Ends rest) : Broken rest := by
  intro c hc
  rcases h c hc with rfl | rfl | rfl | rfl <;> decide

theorem broken_exponentChars (h : Ends rest) : Broken (s.exponentChars ++ rest) := by
  unfold exponentChars
  split
  · intro c hc
    cases hc
    decide
  · exact broken_of_ends h

theorem broken_fractionChars (h : Ends rest) :
    Broken (s.fractionChars ++ (s.exponentChars ++ rest)) := by
  unfold fractionChars
  split
  · intro c hc
    cases hc
    decide
  · exact broken_exponentChars h

theorem exponentDigits_append {negative : Bool} {cs : List Char} (hne : cs ≠ [])
    (hcs : ∀ c ∈ cs, c.isDigit = true) (h : Ends rest) :
    Token.exponentDigits negative (cs ++ rest) =
      some (some (if negative then -(digitsValue (digits cs) : ℤ) else digitsValue (digits cs)),
        rest) := by
  unfold Token.exponentDigits
  rw [spanDigits_append hcs (broken_of_ends h)]
  cases cs with
  | nil => exact absurd rfl hne
  | cons c cs => rfl

theorem exponentPart_append (hs : s.Sound) (h : Ends rest) :
    Token.exponentPart (s.exponentChars ++ rest) = some ((s.numeral false).exponent, rest) := by
  unfold exponentChars numeral
  cases hexponent : s.exponent with
  | none =>
    cases rest with
    | nil => rfl
    | cons c rest => rcases h c rfl with rfl | rfl | rfl | rfl <;> rfl
  | some e =>
    obtain ⟨negative, cs⟩ := e
    obtain ⟨hne, hcs⟩ := hs.exponent _ hexponent
    cases negative with
    | false => exact exponentDigits_append hne hcs h
    | true => exact exponentDigits_append hne hcs h

theorem fractionPart_append (hs : s.Sound) (h : Ends rest) :
    Token.fractionPart (s.fractionChars ++ (s.exponentChars ++ rest)) =
      some ((s.numeral false).fraction, s.exponentChars ++ rest) := by
  unfold fractionChars numeral
  cases hfraction : s.fraction with
  | none =>
    show Token.fractionPart (s.exponentChars ++ rest) = some (none, s.exponentChars ++ rest)
    unfold exponentChars
    split
    · rfl
    · cases rest with
      | nil => rfl
      | cons c rest => rcases h c rfl with rfl | rfl | rfl | rfl <;> rfl
  | some cs =>
    obtain ⟨hne, hcs⟩ := hs.fraction _ hfraction
    dsimp only
    rw [List.cons_append, Token.fractionPart, spanDigits_append hcs (broken_exponentChars h)]
    cases cs with
    | nil => exact absurd rfl hne
    | cons c cs => rfl

theorem unsignedNumber_append (hs : s.Sound) (h : Ends rest) (negative : Bool) :
    Token.unsignedNumber negative (s.chars ++ rest) = some (s.numeral negative, rest) := by
  unfold Token.unsignedNumber
  rw [chars, List.append_assoc, List.append_assoc,
    spanDigits_append hs.whole.2 (broken_fractionChars h)]
  split
  · next hnone =>
    exact absurd (List.map_eq_nil_iff.mp (congrArg Prod.fst hnone)) hs.whole.1
  · next hzero =>
    have hdigits := congrArg Prod.fst hzero
    obtain ⟨c, cs, hwhole, hc, hcs⟩ := List.map_eq_cons_iff.mp hdigits
    obtain ⟨d, ds, hcs, _, _⟩ := List.map_eq_cons_iff.mp hcs
    rw [hcs] at hwhole
    exact absurd hc (hs.leading c d ds hwhole)
  · next hdigits =>
    cases hdigits
    rw [fractionPart_append hs h]
    dsimp only [bind, Option.bind]
    rw [exponentPart_append hs h]
    rfl

theorem numeral_append (hs : s.Sound) (h : Ends rest) (negative : Bool) :
    Token.numeral ((if negative then ['-'] else []) ++ s.chars ++ rest) =
      some (s.numeral negative, rest) := by
  cases negative with
  | true => exact unsignedNumber_append hs h true
  | false =>
    have hunsigned : Token.numeral (s.chars ++ rest) =
        Token.unsignedNumber false (s.chars ++ rest) := by
      unfold Token.numeral
      split
      · next hminus =>
        obtain ⟨hne, hdigits⟩ := hs.whole
        cases hwhole : s.whole with
        | nil => exact absurd hwhole hne
        | cons c cs =>
          rw [chars, hwhole] at hminus
          cases hminus
          have hdash := hdigits '-' (hwhole ▸ List.mem_cons_self)
          exact absurd hdash (by decide)
      · rfl
    show Token.numeral (s.chars ++ rest) = _
    rw [hunsigned, unsignedNumber_append hs h false]

/-! ## Decimals as JSON -/

/-- A spelling of a decimal as a number that is not a whole one. -/
structure Spells (s : Spelling) (d : Decimal) : Prop where
  sound : s.Sound
  marked : s.fraction.isSome = true ∨ s.exponent.isSome = true
  value : (s.numeral false).decimal.value = d.value
  small : (s.numeral false).significand ≤ 10 ^ 17
  /-- Where the digits are not divided, they and the exponent are those of the decimal. -/
  undivided : 0 ≤ (s.numeral false).power → (s.numeral false).decimal = d

open Layout (digitChars zeros)

variable {d : Decimal}

theorem sound_fraction {whole cs : List Char}
    (hwhole : whole ≠ [] ∧ ∀ c ∈ whole, c.isDigit = true)
    (hleading : ∀ c d rest, whole = c :: d :: rest → c.toNat - 48 ≠ 0)
    (hcs : cs ≠ [] ∧ ∀ c ∈ cs, c.isDigit = true) : Sound ⟨whole, some cs, none⟩ := by
  refine ⟨hwhole, hleading, fun cs' h => ?_, fun e h => by cases h⟩
  cases h
  exact hcs

theorem isDigit_digitChars {n : ℕ} : ∀ c ∈ digitChars n, c.isDigit = true :=
  Numeral.isDigit_toDigits

theorem forall_isDigit_append {cs ds : List Char} (hcs : ∀ c ∈ cs, c.isDigit = true)
    (hds : ∀ c ∈ ds, c.isDigit = true) : ∀ c ∈ cs ++ ds, c.isDigit = true := fun c hc =>
  (List.mem_append.mp hc).elim (hcs c) (hds c)

theorem sound_zero : ['0'] ≠ [] ∧ ∀ c ∈ ['0'], c.isDigit = true :=
  ⟨List.cons_ne_nil _ _, Numeral.isDigit_zeros (n := 1)⟩

/-- Digits, zeros up to the point, and one zero after it. -/
theorem spells_whole (hd : 0 < d.digits ∨ d = ⟨0, 0⟩) (hexponent : 0 ≤ d.exponent)
    (hplaces : d.exponent + (digitChars d.digits).length ≤ 16) :
    Spells ⟨digitChars d.digits ++ zeros d.exponent.toNat, some ['0'], none⟩ d := by
  obtain ⟨n, e⟩ := d
  obtain ⟨k, rfl⟩ := Int.eq_ofNat_of_zero_le hexponent
  dsimp only at hd hplaces ⊢
  rw [Int.toNat_natCast]
  have hsignificand : (numeral ⟨digitChars n ++ zeros k, some ['0'], none⟩ false).significand =
      n * 10 ^ (k + 1) := by
    show digitsValue (digits (digitChars n ++ zeros k) ++ digits ['0']) = _
    have hzero : digits ['0'] = digits (zeros 1) := rfl
    have hlength : (zeros k).length = k := List.length_replicate
    rw [Numeral.digitsValue_append, Numeral.digits_append, Numeral.digitsValue_append, digitChars,
      Numeral.digitsValue_toDigits, Numeral.digitsValue_zeros, hzero, Numeral.digitsValue_zeros,
      Numeral.length_digits, Numeral.length_digits, hlength, Nat.pow_succ, Nat.add_zero,
      Nat.add_zero, Nat.mul_assoc]
    rfl
  have hpower : (numeral ⟨digitChars n ++ zeros k, some ['0'], none⟩ false).power = -1 := rfl
  refine ⟨sound_fraction ⟨?_, ?_⟩ ?_ sound_zero, .inl rfl, ?_, ?_, ?_⟩
  · exact List.append_ne_nil_of_left_ne_nil (Numeral.toDigits_ne_nil n) _
  · exact forall_isDigit_append isDigit_digitChars Numeral.isDigit_zeros
  · intro c c' cs h
    rcases hd with hpos | hzero
    · cases hdigits : digitChars n with
      | nil => exact absurd hdigits (Numeral.toDigits_ne_nil n)
      | cons a as =>
        rw [hdigits] at h
        obtain ⟨rfl, _⟩ := List.cons.inj h
        exact Numeral.toDigits_head hpos hdigits
    · cases hzero
      cases h
  · rw [Decimal.value, Decimal.value]
    show ((numeral _ false).significand : ℚ) * 10 ^ (numeral _ false).power = _
    show _ = (n : ℚ) * 10 ^ (k : ℤ)
    rw [hsignificand, hpower, zpow_natCast]
    push_cast
    rw [pow_succ, zpow_neg_one]
    ring
  · rw [hsignificand]
    have hlt : n < 10 ^ (digitChars n).length :=
      (Nat.length_toDigits_le_iff (by decide) Nat.length_toDigits_pos).mp le_rfl
    calc n * 10 ^ (k + 1) ≤ 10 ^ (digitChars n).length * 10 ^ (k + 1) :=
          Nat.mul_le_mul_right _ hlt.le
      _ = 10 ^ ((digitChars n).length + (k + 1)) := (Nat.pow_add ..).symm
      _ ≤ 10 ^ 17 := Nat.pow_le_pow_right (by decide) (by omega)
  · rw [hpower]
    intro h
    exact absurd h (by decide)

/-- Digits with the point between them. -/
theorem spells_split (hd : 0 < d.digits) (hsmall : d.digits ≤ 10 ^ 17) {places : ℕ}
    (hexponent : d.exponent = -(places : ℤ)) (hpos : 0 < places)
    (hplaces : places < (digitChars d.digits).length) :
    Spells ⟨(digitChars d.digits).take ((digitChars d.digits).length - places),
      some ((digitChars d.digits).drop ((digitChars d.digits).length - places)), none⟩ d := by
  obtain ⟨n, e⟩ := d
  dsimp only at hexponent hplaces hd hsmall ⊢
  subst hexponent
  generalize hds : digitChars n = ds at hplaces ⊢
  have hdigits : ∀ c ∈ ds, c.isDigit = true := hds ▸ isDigit_digitChars
  generalize hcount : ds.length - places = count
  have hsignificand : (numeral ⟨ds.take count, some (ds.drop count), none⟩ false).significand =
      n := by
    show digitsValue (digits (ds.take count) ++ digits (ds.drop count)) = n
    rw [← Numeral.digits_append, List.take_append_drop, ← hds, digitChars,
      Numeral.digitsValue_toDigits]
  have hpower : (numeral ⟨ds.take count, some (ds.drop count), none⟩ false).power =
      -(places : ℤ) := by
    show (0 : ℤ) - (digits (ds.drop count)).length = _
    rw [Numeral.length_digits, List.length_drop]
    omega
  refine ⟨sound_fraction ⟨?_, ?_⟩ ?_ ⟨?_, ?_⟩, .inl rfl, ?_, ?_, ?_⟩
  · intro h
    have hlength := congrArg List.length h
    rw [List.length_take, List.length_nil] at hlength
    omega
  · exact fun c hc => hdigits c (List.mem_of_mem_take hc)
  · intro c c' cs h
    cases hall : ds with
    | nil =>
      rw [hall, List.take_nil] at h
      cases h
    | cons a as =>
      rw [hall] at h
      obtain ⟨j, rfl⟩ : ∃ j, count = j + 1 := ⟨count - 1, by omega⟩
      rw [List.take_succ_cons] at h
      obtain ⟨rfl, _⟩ := List.cons.inj h
      exact Numeral.toDigits_head hd (hds.trans hall)
  · intro h
    have hlength := congrArg List.length h
    rw [List.length_drop, List.length_nil] at hlength
    omega
  · exact fun c hc => hdigits c (List.mem_of_mem_drop hc)
  · show ((numeral _ false).significand : ℚ) * 10 ^ (numeral _ false).power = _
    rw [hsignificand, hpower]
    rfl
  · rw [hsignificand]
    exact hsmall
  · rw [hpower]
    omega

/-- A zero, the point, and zeros before the digits. -/
theorem spells_small (hsmall : d.digits ≤ 10 ^ 17) {places : ℕ}
    (hexponent : d.exponent = -(places : ℤ)) (hpos : 0 < places)
    (hplaces : (digitChars d.digits).length ≤ places) :
    Spells ⟨['0'], some (zeros (places - (digitChars d.digits).length) ++ digitChars d.digits),
      none⟩ d := by
  obtain ⟨n, e⟩ := d
  dsimp only at hexponent hplaces hsmall ⊢
  subst hexponent
  generalize hcount : places - (digitChars n).length = count
  have hsignificand : (numeral ⟨['0'], some (zeros count ++ digitChars n), none⟩
      false).significand = n := by
    show digitsValue (digits ['0'] ++ digits (zeros count ++ digitChars n)) = n
    have hzero : digits ['0'] = [0] := rfl
    rw [hzero, List.singleton_append, Numeral.digitsValue_cons, Numeral.digits_append,
      Numeral.digitsValue_append, Numeral.digitsValue_zeros, digitChars,
      Numeral.digitsValue_toDigits, Nat.zero_mul, Nat.zero_mul, Nat.zero_add, Nat.zero_add]
  have hpower : (numeral ⟨['0'], some (zeros count ++ digitChars n), none⟩ false).power =
      -(places : ℤ) := by
    show (0 : ℤ) - (digits (zeros count ++ digitChars n)).length = _
    rw [Numeral.length_digits, List.length_append, zeros, List.length_replicate]
    omega
  refine ⟨sound_fraction sound_zero ?_ ⟨?_, ?_⟩, .inl rfl, ?_, ?_, ?_⟩
  · intro c c' cs h
    cases h
  · exact List.append_ne_nil_of_right_ne_nil _ (Numeral.toDigits_ne_nil n)
  · exact forall_isDigit_append Numeral.isDigit_zeros isDigit_digitChars
  · show ((numeral _ false).significand : ℚ) * 10 ^ (numeral _ false).power = _
    rw [hsignificand, hpower]
    rfl
  · rw [hsignificand]
    exact hsmall
  · rw [hpower]
    omega

theorem exponentChars_one (e : ℤ) : Layout.exponentChars 1 e =
    (if decide (e < 0) then '-' else '+') :: digitChars e.natAbs := by
  have hone : 1 - (digitChars e.natAbs).length = 0 :=
    Nat.sub_eq_zero_of_le (Nat.length_toDigits_pos (b := 10))
  unfold Layout.exponentChars
  dsimp only
  rw [hone]
  simp [zeros]

/-- One digit, the others after the point, and the exponent of the first digit. -/
theorem spells_exponent {c : Char} {fraction : Option (List Char)} {e : ℤ}
    (hsmall : d.digits ≤ 10 ^ 17) (hdigits : digitChars d.digits = c :: fraction.getD [])
    (hfraction : fraction ≠ some []) (he : e = Layout.leadingExponent d) :
    Spells ⟨[c], fraction, some (decide (e < 0), digitChars e.natAbs)⟩ d := by
  have hall : ∀ x ∈ c :: fraction.getD [], x.isDigit = true := hdigits ▸ isDigit_digitChars
  have hexponent : (if decide (e < 0) then -(digitsValue (digits (digitChars e.natAbs)) : ℤ)
      else digitsValue (digits (digitChars e.natAbs))) = e := by
    rw [digitChars, Numeral.digitsValue_toDigits]
    split
    · next h =>
      have hnegative := of_decide_eq_true h
      omega
    · next h =>
      have hpositive := of_decide_eq_false (eq_false_of_ne_true h)
      omega
  have hdecimal : (numeral ⟨[c], fraction, some (decide (e < 0), digitChars e.natAbs)⟩
      false).decimal = d := by
    have hvalue := Numeral.digitsValue_toDigits d.digits
    rw [← digitChars, hdigits] at hvalue
    have hpart : (fraction.map digits).getD [] = digits (fraction.getD []) := by
      cases fraction <;> rfl
    show Decimal.mk (digitsValue (digits [c] ++ (fraction.map digits).getD []))
      ((if decide (e < 0) then -(digitsValue (digits (digitChars e.natAbs)) : ℤ)
        else digitsValue (digits (digitChars e.natAbs))) -
          ((fraction.map digits).getD []).length) = d
    rw [hpart, hexponent, ← Numeral.digits_append, List.singleton_append, hvalue,
      Numeral.length_digits, he, Layout.leadingExponent, hdigits, List.length_cons]
    push_cast
    rw [← add_assoc, add_sub_cancel_right, add_sub_cancel_right]
  refine ⟨⟨⟨by simp, ?_⟩, ?_, fun cs h => ?_, fun x hx => ?_⟩, .inr rfl, by rw [hdecimal], ?_,
    fun _ => hdecimal⟩
  · intro x hx
    exact hall x (List.mem_singleton.mp hx ▸ List.mem_cons_self)
  · intro x y cs h
    cases h
  · cases h
    exact ⟨fun hnil => hfraction (congrArg some hnil),
      fun y hy => hall y (List.mem_cons_of_mem c hy)⟩
  · cases hx
    exact ⟨Numeral.toDigits_ne_nil _, isDigit_digitChars⟩
  · exact (congrArg Decimal.digits hdecimal).trans_le hsmall

theorem exists_spells_scientific (hsmall : d.digits ≤ 10 ^ 17) :
    ∃ s : Spelling, Layout.scientificChars false 1 d (Layout.leadingExponent d) = s.chars ∧
      Spells s d := by
  unfold Layout.scientificChars
  rw [exponentChars_one]
  cases hdigits : digitChars d.digits with
  | nil => exact absurd hdigits (Numeral.toDigits_ne_nil d.digits)
  | cons c rest =>
    cases rest with
    | nil =>
      refine ⟨_, ?_, spells_exponent hsmall (hdigits.trans (List.cons_eq_cons.mpr ⟨rfl, ?_⟩))
        (Option.some_ne_none []).symm rfl⟩
      · simp [chars, fractionChars, exponentChars]
      · rfl
    | cons x xs =>
      have hfraction : some (x :: xs) ≠ some [] := by simp
      refine ⟨_, ?_, spells_exponent hsmall hdigits hfraction rfl⟩
      simp [chars, fractionChars, exponentChars]

/-- The JSON layout spells a decimal. -/
theorem exists_spells (hd : 0 < d.digits ∨ d = ⟨0, 0⟩) (hsmall : d.digits ≤ 10 ^ 17) :
    ∃ s : Spelling, Layout.json.decimalChars d = s.chars ∧ Spells s d := by
  unfold Layout.decimalChars
  dsimp only
  cases hform : Layout.json.positional (Layout.leadingExponent d) with
  | false => exact exists_spells_scientific hsmall
  | true =>
    have hrange : -5 ≤ Layout.leadingExponent d ∧ Layout.leadingExponent d < 16 := by
      simpa [Layout.json] using hform
    unfold Layout.leadingExponent at hrange
    rw [if_pos rfl]
    unfold Layout.positionalChars
    dsimp only
    split
    · next hexponent =>
      refine ⟨_, ?_, spells_whole hd hexponent (by omega)⟩
      simp [chars, fractionChars, exponentChars, Layout.json]
    · next hexponent =>
      have hpower : d.exponent = -((-d.exponent).toNat : ℤ) := by omega
      have hpos : 0 < d.digits := by
        rcases hd with hpos | rfl
        · exact hpos
        · exact absurd le_rfl hexponent
      split
      · next hplaces =>
        refine ⟨_, ?_, spells_split hpos hsmall hpower (by omega) hplaces⟩
        simp [chars, fractionChars, exponentChars]
      · next hplaces =>
        refine ⟨_, ?_, spells_small hsmall hpower (by omega) (not_lt.mp hplaces)⟩
        simp [chars, fractionChars, exponentChars]

end Spelling
end Json
end TableSearch
