/-
Doubles as JSON numbers.

The reader rounds the digits first and then scales them by a power of ten that is rounded as
well, so it need not return the nearest double.  What holds of it without a condition is that
every double it returns is finite (`isFinite_ofNumeral`) and that it returns some double for the
shortest digits of every finite one (`numeral_chars`): these never overflow, also where the
digits are scaled up to the largest doubles.  Where it does return the nearest double to the
shortest digits of a double, that is the double itself (`reread_eq`).
-/
import TableSearch.Proofs.Json.Numeral

namespace TableSearch

namespace Double

def isFinite (x : Double) : Bool :=
  match x.reading with
  | .finite .. => true
  | _ => false

theorem isFinite_iff {x : Double} :
    x.isFinite = true ↔ ∃ negative m e, x.reading = .finite negative m e := by
  unfold isFinite
  cases x.reading <;> simp

theorem ratio_eq {x : Double} {negative : Bool} {m : ℕ} {e : ℤ}
    (h : x.reading = .finite negative m e) :
    0 < x.ratio.2 ∧ (x.ratio.1 : ℚ) / x.ratio.2 = m * 2 ^ e := by
  unfold ratio
  rw [h]
  dsimp only
  split
  · next hpos =>
    obtain ⟨k, rfl⟩ := Int.eq_ofNat_of_zero_le hpos
    refine ⟨Nat.one_pos, ?_⟩
    rw [Int.toNat_natCast]
    push_cast
    rw [div_one, zpow_natCast]
  · next hneg =>
    obtain ⟨k, hk⟩ := Int.eq_ofNat_of_zero_le (by omega : 0 ≤ -e)
    obtain rfl : e = -(k : ℤ) := by omega
    refine ⟨by positivity, ?_⟩
    rw [neg_neg, Int.toNat_natCast]
    push_cast
    rw [zpow_neg, zpow_natCast, div_eq_mul_inv]

theorem neg_ofMagnitude {n : ℕ} (h : n < 2 ^ 63) :
    (ofMagnitude false n).neg = ofMagnitude true n := by
  have hxor : n ^^^ 2 ^ 63 = 2 ^ 63 + n := by
    have hor := Nat.two_pow_add_eq_or_of_lt h 1
    rw [Nat.mul_one] at hor
    rw [hor]
    refine Nat.eq_of_testBit_eq fun i => ?_
    rw [Nat.testBit_xor, Nat.testBit_or, Nat.testBit_two_pow]
    by_cases hi : 63 = i
    · rw [← hi, Nat.testBit_lt_two_pow h]
      rfl
    · rw [decide_eq_false hi, Bool.xor_false, Bool.false_or]
  have hbits : (ofMagnitude false n).bits ^^^ 0x8000000000000000 = (ofMagnitude true n).bits := by
    rw [← UInt64.toNat_inj, UInt64.toNat_xor, toNat_ofMagnitude h, toNat_ofMagnitude h]
    show (0 + n) ^^^ 2 ^ 63 = 2 ^ 63 + n
    rw [Nat.zero_add, hxor]
  exact congrArg Double.mk hbits

theorem neg_neg (x : Double) : x.neg.neg = x := by
  have hbits : (x.bits ^^^ 0x8000000000000000) ^^^ 0x8000000000000000 = x.bits := by
    rw [UInt64.xor_assoc, UInt64.xor_self, UInt64.xor_zero]
  exact congrArg Double.mk hbits

/-! ## Rounded ratios are finite or infinite -/

theorem isFinite_ofMagnitude {n : ℕ} (h : n < infiniteMagnitude) (negative : Bool) :
    (ofMagnitude negative n).isFinite = true := by
  have hlt : n < 2 ^ 63 := h.trans (by decide)
  have hfield : (ofMagnitude negative n).exponentField ≠ 2047 := by
    rw [exponentField_ofMagnitude hlt]
    unfold infiniteMagnitude at h
    omega
  unfold isFinite reading
  rw [if_neg hfield]
  split
  · rfl
  · rename_i hreading
    exfalso
    split at hreading
    · exact hreading _ _ _ rfl
    · exact hreading _ _ _ rfl

theorem isFinite_ofRatio {num den : ℕ} (negative : Bool) (hden : 0 < den)
    (h : (ofRatio negative num den).isInfinite = false) :
    (ofRatio negative num den).isFinite = true := by
  obtain ⟨e, r, he, hr⟩ := exists_nearest num hden
  rw [ofRatio_eq negative hden he hr] at h ⊢
  rcases Nat.lt_or_ge (magnitude r e) infiniteMagnitude with hlt | hge
  · rw [min_eq_left hlt.le]
    exact isFinite_ofMagnitude hlt negative
  · rw [min_eq_right hge] at h
    cases negative <;> exact absurd h (by decide +kernel)

theorem isFinite_neg {x : Double} (h : x.isFinite = true) : x.neg.isFinite = true := by
  obtain ⟨negative, m, e, hreading⟩ := isFinite_iff.mp h
  obtain ⟨hcanonical, rfl⟩ := eq_ofMagnitude hreading
  have hlt := magnitude_lt hcanonical
  have hlt' : magnitude m e < 2 ^ 63 := hlt.trans (by decide)
  cases negative with
  | false =>
    rw [neg_ofMagnitude hlt']
    exact isFinite_ofMagnitude hlt true
  | true =>
    rw [← neg_ofMagnitude hlt', neg_neg]
    exact isFinite_ofMagnitude hlt false

def Moderate (x : Double) : Prop :=
  ∃ negative m e, x.reading = .finite negative m e ∧ (m : ℚ) * 2 ^ e ≤ 2 ^ 64

theorem Moderate.isFinite {x : Double} (h : x.Moderate) : x.isFinite = true := by
  obtain ⟨negative, m, e, hreading, _⟩ := h
  exact isFinite_iff.mpr ⟨negative, m, e, hreading⟩

theorem moderate_ofRatio {num den : ℕ} (negative : Bool) (hden : 0 < den)
    (h : (num : ℚ) / den ≤ 2 ^ 64) : (ofRatio negative num den).Moderate := by
  have hcanonical : Canonical (2 ^ 52) 12 := ⟨by decide, by decide, by decide, .inr le_rfl⟩
  have hvalue : ((2 ^ 52 : ℕ) : ℚ) * 2 ^ (12 : ℤ) = 2 ^ 64 := by norm_num
  obtain ⟨m, e, hreading, hle⟩ := ofRatio_le negative hden hcanonical (hvalue ▸ h)
  exact ⟨negative, m, e, hreading, hle.trans_eq hvalue⟩

end Double

namespace Json
namespace Number

open Double (Canonical Near magnitude ofMagnitude ofRatio isFinite)
open Numeral (digitsValue)

/-! ## Digits that fit -/

theorem takeWhole_fits {n : ℕ} {ds : List ℕ}
    (h : n * 10 ^ ds.length + digitsValue ds ≤ largestSignificand) :
    takeWhole n ds = (n * 10 ^ ds.length + digitsValue ds, 0) := by
  induction ds generalizing n with
  | nil => simp [takeWhole, digitsValue]
  | cons d ds ih =>
    have hsame : n * 10 ^ (d :: ds).length + digitsValue (d :: ds) =
        (n * 10 + d) * 10 ^ ds.length + digitsValue ds := by
      rw [Numeral.digitsValue_cons, List.length_cons, Nat.pow_succ]
      ring
    rw [hsame] at h ⊢
    have hle : n * 10 + d ≤ (n * 10 + d) * 10 ^ ds.length :=
      Nat.le_mul_of_pos_right _ (by positivity)
    rw [takeWhole, if_pos (by omega), ih h]

theorem takeFraction_fits {n : ℕ} {ds : List ℕ}
    (h : n * 10 ^ ds.length + digitsValue ds ≤ largestSignificand) :
    takeFraction n ds = (n * 10 ^ ds.length + digitsValue ds, ds.length) := by
  induction ds generalizing n with
  | nil => simp [takeFraction, digitsValue]
  | cons d ds ih =>
    have hsame : n * 10 ^ (d :: ds).length + digitsValue (d :: ds) =
        (n * 10 + d) * 10 ^ ds.length + digitsValue ds := by
      rw [Numeral.digitsValue_cons, List.length_cons, Nat.pow_succ]
      ring
    rw [hsame] at h ⊢
    have hle : n * 10 + d ≤ (n * 10 + d) * 10 ^ ds.length :=
      Nat.le_mul_of_pos_right _ (by positivity)
    rw [takeFraction, if_pos (by omega), ih h]
    rfl

/-- A number with a fraction or an exponent whose digits all fit is a double. -/
theorem ofNumeral_fits {t : Numeral} (hmarked : t.fraction.isSome = true ∨ t.exponent.isSome = true)
    (hfits : t.significand ≤ largestSignificand) :
    ofNumeral t = (scaled t.significand t.power).map fun x => .float (signed t.negative x) := by
  have hsignificand : t.significand =
      digitsValue t.whole * 10 ^ (t.fraction.getD []).length + digitsValue (t.fraction.getD []) :=
    Numeral.digitsValue_append _ _
  have hle : digitsValue t.whole ≤ digitsValue t.whole * 10 ^ (t.fraction.getD []).length :=
    Nat.le_mul_of_pos_right _ (by positivity)
  have hwhole : takeWhole 0 t.whole = (digitsValue t.whole, 0) := by
    rw [takeWhole_fits (by omega), Nat.zero_mul, Nat.zero_add]
  have hfraction : takeFraction (digitsValue t.whole) (t.fraction.getD []) =
      (t.significand, (t.fraction.getD []).length) := by
    rw [takeFraction_fits (by omega), hsignificand]
  have hpower : ((0 : ℕ) : ℤ) - (t.fraction.getD []).length + t.exponent.getD 0 = t.power := by
    unfold Numeral.power
    push_cast
    ring
  unfold ofNumeral
  rw [hwhole]
  dsimp only
  split
  · next hnone hnone' _ =>
    rw [hnone, hnone'] at hmarked
    simp at hmarked
  · rw [hfraction]
    dsimp only
    rw [hpower]

/-- A number without fraction and exponent whose digits all fit. -/
theorem ofNumeral_whole {t : Numeral} (hfraction : t.fraction = none)
    (hexponent : t.exponent = none) (hfits : t.significand ≤ largestSignificand) :
    ofNumeral t = some (ofWhole t.negative t.significand) := by
  have hsignificand : t.significand = digitsValue t.whole := by
    rw [Numeral.significand, hfraction, Option.getD_none, List.append_nil]
  have hwhole : takeWhole 0 t.whole = (t.significand, 0) := by
    rw [takeWhole_fits (by omega), Nat.zero_mul, Nat.zero_add, hsignificand]
  unfold ofNumeral
  rw [hwhole, hfraction, hexponent]
  rfl

theorem ofWhole_natAbs {n : ℤ} (hlow : -2 ^ 63 ≤ n) (hhigh : n < 2 ^ 63) :
    ofWhole (decide (n < 0)) n.natAbs = .int n := by
  unfold ofWhole
  rcases Int.lt_or_le n 0 with hnegative | hpositive
  · rw [decide_eq_true hnegative, if_pos rfl, if_pos ⟨by omega, by omega⟩,
      Int.ofNat_natAbs_of_nonpos hnegative.le, Int.neg_neg]
  · rw [decide_eq_false (Int.not_lt.mpr hpositive), if_neg Bool.false_ne_true,
      if_pos (by omega), Int.natAbs_of_nonneg hpositive]

/-! ## Numbers in range -/

def halfPlace : ℕ := 2 ^ 970

/-- The largest significand of up to seventeen digits with which `10 ^ k` stays below the middle
between the two largest doubles. -/
def largestTaken (k : ℕ) : ℕ :=
  min (10 ^ 17) ((2 ^ 54 - 3) * halfPlace / 10 ^ k)

/-- The powers of ten are numbers from one on.  The largest significands are doubles themselves,
and scaling them does not overflow. -/
theorem powerOfTen_fits : ∀ k < 309,
    ((powerOfTen k).isFinite = true ∧ (powerOfTen k).ratio.2 ≤ (powerOfTen k).ratio.1) ∧
      ((ofRatio false (largestTaken k) 1).isFinite = true ∧
        (ofRatio false (largestTaken k) 1).ratio.1 =
          largestTaken k * (ofRatio false (largestTaken k) 1).ratio.2) ∧
      largestTaken k * (powerOfTen k).ratio.1 <
        (2 ^ 54 - 1) * halfPlace * (powerOfTen k).ratio.2 := by
  decide +kernel

theorem two_zpow_succ (n : ℕ) : (2 : ℚ) ^ ((n + 1 : ℕ) : ℤ) = ((2 ^ n : ℕ) : ℚ) * 2 := by
  rw [zpow_natCast, pow_succ, Nat.cast_pow, Nat.cast_ofNat]

theorem lastPlace_eq : Double.lastPlace = (halfPlace : ℚ) * 2 := by
  have hexponent : (971 : ℤ) = ((970 + 1 : ℕ) : ℤ) := rfl
  rw [Double.lastPlace, hexponent, two_zpow_succ, halfPlace]

theorem tooLarge_eq : Double.tooLarge = (((2 ^ 54 - 1) * halfPlace : ℕ) : ℚ) := by
  rw [Double.tooLarge, lastPlace_eq]
  push_cast
  ring

/-- A significand that is not too large is scaled to a finite double. -/
theorem scaled_nonnegative {n k : ℕ} (hk : k < 309) (hn : n ≤ largestTaken k) :
    (scaled n k).isSome = true := by
  obtain ⟨⟨hpower, _⟩, ⟨hfinite, hexact⟩, hlt⟩ := powerOfTen_fits k hk
  obtain ⟨_, m, e, hreading⟩ := Double.isFinite_iff.mp hfinite
  obtain ⟨_, m', e', hreading'⟩ := Double.isFinite_iff.mp hpower
  obtain ⟨hpos, hratio⟩ := Double.ratio_eq hreading
  obtain ⟨hpos', hratio'⟩ := Double.ratio_eq hreading'
  have hbound : (m : ℚ) * 2 ^ e = largestTaken k := by
    have hposq : ((ofRatio false (largestTaken k) 1).ratio.2 : ℚ) ≠ 0 := by
      exact_mod_cast hpos.ne'
    rw [← hratio, hexact, Nat.cast_mul, mul_div_cancel_right₀ _ hposq]
  have hrounded : ((n : ℕ) : ℚ) / ((1 : ℕ) : ℚ) ≤ m * 2 ^ e := by
    rw [hbound, Nat.cast_one, div_one]
    exact_mod_cast hn
  obtain ⟨l, f, hl, hle⟩ := Double.ofRatio_le false Nat.one_pos
    (Double.eq_ofMagnitude hreading).1 hrounded
  obtain ⟨hlpos, hlratio⟩ := Double.ratio_eq hl
  have hproduct : (((ofRatio false n 1).ratio.1 * (powerOfTen k).ratio.1 : ℕ) : ℚ) /
      ((ofRatio false n 1).ratio.2 * (powerOfTen k).ratio.2 : ℕ) < Double.tooLarge := by
    have hpowerLt : (largestTaken k : ℚ) * (m' * 2 ^ e') < Double.tooLarge := by
      have hposq : (0 : ℚ) < (powerOfTen k).ratio.2 := by exact_mod_cast hpos'
      rw [← hratio', mul_div_assoc', div_lt_iff₀ hposq, tooLarge_eq, ← Nat.cast_mul,
        ← Nat.cast_mul]
      exact Nat.cast_lt.mpr hlt
    have hnonneg : (0 : ℚ) ≤ m' * 2 ^ e' :=
      mul_nonneg (Nat.cast_nonneg m') (zpow_nonneg zero_le_two e')
    rw [Nat.cast_mul, Nat.cast_mul, ← div_mul_div_comm, hlratio, hratio']
    exact (mul_le_mul_of_nonneg_right (hle.trans_eq hbound) hnonneg).trans_lt hpowerLt
  obtain ⟨g, r, hg, hr⟩ := Double.exists_nearest _ (Nat.mul_pos hlpos hpos')
  obtain ⟨q, j, hq, _⟩ := Double.reading_ofRatio false (Nat.mul_pos hlpos hpos') hproduct hg hr
  have hnot : ((ofRatio false n 1).timesMagnitude (powerOfTen k)).isInfinite = false := by
    unfold Double.isInfinite Double.timesMagnitude
    rw [hq]
  unfold scaled
  dsimp only
  rw [if_neg (by omega), if_neg (by omega), Int.toNat_natCast, hnot]
  rfl

/-! ## Every number that is read is finite -/

theorem takeWhole_le {n : ℕ} (ds : List ℕ) (h : n ≤ largestSignificand) :
    (takeWhole n ds).1 ≤ largestSignificand := by
  induction ds generalizing n with
  | nil => exact h
  | cons d ds ih =>
    rw [takeWhole]
    split
    · next hfits => exact ih hfits
    · exact h

theorem takeFraction_le {n : ℕ} (ds : List ℕ) (h : n ≤ largestSignificand) :
    (takeFraction n ds).1 ≤ largestSignificand := by
  induction ds generalizing n with
  | nil => exact h
  | cons d ds ih =>
    rw [takeFraction]
    split
    · next hfits => exact ih hfits
    · exact h

theorem moderate_significand {n : ℕ} (negative : Bool) (h : n ≤ largestSignificand) :
    (ofRatio negative n 1).Moderate := by
  refine Double.moderate_ofRatio negative Nat.one_pos ?_
  have hcast : (n : ℚ) ≤ ((2 ^ 64 : ℕ) : ℚ) := Nat.cast_le.mpr (h.trans (Nat.sub_le _ _))
  rw [Nat.cast_one, div_one]
  exact hcast.trans_eq (by norm_num)

theorem moderate_over {x : Double} {k : ℕ} (hk : k < 309) (h : x.Moderate) :
    (x.overMagnitude (powerOfTen k)).Moderate := by
  obtain ⟨negative, m, e, hreading, hle⟩ := h
  obtain ⟨hfinite, hge⟩ := (powerOfTen_fits k hk).1
  obtain ⟨_, m', e', hreading'⟩ := Double.isFinite_iff.mp hfinite
  obtain ⟨hpos, hratio⟩ := Double.ratio_eq hreading
  obtain ⟨hpos', _⟩ := Double.ratio_eq hreading'
  have hposq : (0 : ℚ) < (powerOfTen k).ratio.2 := Nat.cast_pos.mpr hpos'
  have hposq' : (0 : ℚ) < (powerOfTen k).ratio.1 := Nat.cast_pos.mpr (hpos'.trans_le hge)
  refine Double.moderate_ofRatio false (Nat.mul_pos hpos (hpos'.trans_le hge)) ?_
  have hone : ((powerOfTen k).ratio.2 : ℚ) / (powerOfTen k).ratio.1 ≤ 1 :=
    (div_le_one hposq').mpr (Nat.cast_le.mpr hge)
  rw [Nat.cast_mul, Nat.cast_mul, ← div_mul_div_comm, hratio]
  have hnonneg : (0 : ℚ) ≤ m * 2 ^ e := mul_nonneg (Nat.cast_nonneg m) (zpow_nonneg zero_le_two e)
  exact (mul_le_of_le_one_right hnonneg hone).trans hle

theorem moderate_shrink {x : Double} (n : ℕ) (h : x.Moderate) : (shrink x n).Moderate := by
  fun_induction shrink x n with
  | case1 x n hfew => exact moderate_over (by omega) h
  | case2 x n hmany hzero => exact h
  | case3 x n hmany hzero ih => exact ih (moderate_over (by decide) h)

theorem isFinite_scaled {n : ℕ} {exponent : ℤ} {x : Double} (hn : n ≤ largestSignificand)
    (h : scaled n exponent = some x) : x.isFinite = true := by
  have hmoderate := moderate_significand false hn
  unfold scaled at h
  dsimp only at h
  split at h
  · cases h
    exact (moderate_shrink _ hmoderate).isFinite
  · split at h
    · split at h
      · cases h
        exact hmoderate.isFinite
      · cases h
    · next hfew =>
      split at h
      · cases h
      · next hnot =>
        cases h
        have hlt : exponent.toNat < 309 := by omega
        obtain ⟨_, m, e, hreading, _⟩ := hmoderate
        obtain ⟨_, m', e', hreading'⟩ := Double.isFinite_iff.mp (powerOfTen_fits _ hlt).1.1
        refine Double.isFinite_ofRatio false ?_ (eq_false_of_ne_true hnot)
        exact Nat.mul_pos (Double.ratio_eq hreading).1 (Double.ratio_eq hreading').1

theorem isFinite_signed {x : Double} (negative : Bool) (h : x.isFinite = true) :
    (signed negative x).isFinite = true := by
  cases negative with
  | false => exact h
  | true => exact Double.isFinite_neg h

/-- A double that the reader makes of a numeral is finite. -/
theorem isFinite_ofNumeral {t : Numeral} {x : Double} (h : ofNumeral t = some (.float x)) :
    x.isFinite = true := by
  have hwhole : (takeWhole 0 t.whole).1 ≤ largestSignificand := takeWhole_le _ (Nat.zero_le _)
  unfold ofNumeral at h
  dsimp only at h
  split at h
  · have hfloat := Option.some.inj h
    unfold ofWhole at hfloat
    split at hfloat
    · split at hfloat <;> cases hfloat
      exact (moderate_significand true hwhole).isFinite
    · split at hfloat <;> cases hfloat
      exact (moderate_significand false hwhole).isFinite
  · obtain ⟨y, hy, hx⟩ := Option.map_eq_some_iff.mp h
    cases hx
    exact isFinite_signed _ (isFinite_scaled (takeFraction_le _ hwhole) hy)

end Number
end Json

namespace Numeral

def nearest (t : Numeral) : Double :=
  Json.Number.signed t.negative
    (Double.ofRatio false (Decimal.overTen t.significand 1 (-t.power)).1
      (Decimal.overTen t.significand 1 (-t.power)).2)

/-- A double is the nearest one to every number that rounds to it. -/
theorem nearest_eq {t : Numeral} {m : ℕ} {e : ℤ} (hm : Double.Canonical m e)
    (h : Double.Near m e t.decimal.value) :
    t.nearest = Double.ofMagnitude t.negative (Double.magnitude m e) := by
  obtain ⟨hden, hratio⟩ := Decimal.overTen_eq t.significand Nat.one_pos (-t.power)
  have hvalue : ((Decimal.overTen t.significand 1 (-t.power)).1 : ℚ) /
      (Decimal.overTen t.significand 1 (-t.power)).2 = t.decimal.value := by
    rw [hratio, Nat.cast_one, div_one, zpow_neg, div_inv_eq_mul]
    rfl
  rw [nearest, Double.ofRatio_near false hden hm (hvalue ▸ h)]
  cases t.negative with
  | false => rfl
  | true => exact Double.neg_ofMagnitude ((Double.magnitude_lt hm).trans (by decide))

end Numeral

/-! ## Doubles written and read -/

namespace Double

open Json (Ends Spelling)
open Json.Number (ofNumeral scaled signed largestTaken halfPlace largestSignificand)

variable {x : Double} {negative : Bool} {m : ℕ} {e : ℤ}

def shortest (m : ℕ) (e : ℤ) : Decimal :=
  if m = 0 then ⟨0, 0⟩ else Decimal.shortest .toEven m e

theorem near_zero : Near 0 (-1074) 0 := by
  refine ⟨?_, ?_, fun h => absurd h (by decide)⟩
  · have hgap : gap 0 (-1074) = 1 / 2 := by
      unfold gap
      rw [if_neg (by decide)]
    rw [hgap, Nat.cast_zero]
    have hpos : (0 : ℚ) < 2 ^ (-1074 : ℤ) := zpow_pos two_pos _
    linarith
  · rw [Nat.cast_zero, zero_add]
    exact mul_nonneg (by norm_num) (zpow_nonneg zero_le_two _)

theorem chars_json (h : x.reading = .finite negative m e) :
    Layout.json.chars x =
      (if negative then ['-'] else []) ++ Layout.json.decimalChars (shortest m e) := by
  unfold Layout.chars
  rw [h]
  cases m with
  | zero =>
    have hzero : Layout.json.decimalChars ⟨0, 0⟩ = ['0', '.', '0'] := by decide
    rw [shortest, if_pos rfl, hzero]
    show (if negative && true then ['-'] else []) ++ _ = _
    rw [Bool.and_true]
    rfl
  | succ n =>
    rw [shortest, if_neg (Nat.succ_ne_zero n)]
    rfl

/-- The shortest digits round to the double, and their number stays in range. -/
theorem shortest_spec (h : Canonical m e) :
    Near m e (shortest m e).value ∧ (0 < (shortest m e).digits ∨ shortest m e = ⟨0, 0⟩) ∧
      (shortest m e).digits ≤ 10 ^ 17 := by
  unfold shortest
  split
  · next hzero =>
    subst hzero
    obtain rfl : e = -1074 := h.full.resolve_right (by decide)
    refine ⟨?_, .inr rfl, Nat.zero_le _⟩
    rw [Decimal.value, Nat.cast_zero, zero_mul]
    exact near_zero
  · next hpos =>
    obtain ⟨hnear, hdigits, hsmall⟩ := Decimal.shortest_spec .toEven (Nat.pos_of_ne_zero hpos) h
    exact ⟨hnear, .inl hdigits, hsmall⟩

/-- The numbers that round to a double below the largest stay below the middle between the two
largest. -/
theorem near_le {q : ℚ} (hm : Canonical m e) (h : Near m e q)
    (hlargest : ¬(m = 2 ^ 53 - 1 ∧ e = 971)) : q ≤ (((2 ^ 54 - 3) * halfPlace : ℕ) : ℚ) := by
  have hpow : (0 : ℚ) < 2 ^ e := zpow_pos two_pos e
  have hplace : (0 : ℚ) < lastPlace := lastPlace_pos
  have hbound : ((m : ℚ) + 1 / 2) * 2 ^ e ≤ (2 ^ 53 - 3 / 2) * lastPlace := by
    rcases hm.largest.lt_or_eq with hlt | rfl
    · have hhalf : (2 : ℚ) ^ e * 2 ≤ lastPlace := by
        rw [← zpow_add_one₀ two_ne_zero]
        exact zpow_le_lastPlace (by omega)
      have hmq : (m : ℚ) + 1 ≤ 2 ^ 53 := by exact_mod_cast hm.bound
      calc ((m : ℚ) + 1 / 2) * 2 ^ e ≤ (2 ^ 53 - 1 / 2) * 2 ^ e := by
            refine mul_le_mul_of_nonneg_right ?_ hpow.le
            linarith
        _ = (2 ^ 52 - 1 / 4) * (2 ^ e * 2) := by ring
        _ ≤ (2 ^ 52 - 1 / 4) * lastPlace := mul_le_mul_of_nonneg_left hhalf (by norm_num)
        _ ≤ (2 ^ 53 - 3 / 2) * lastPlace := mul_le_mul_of_nonneg_right (by norm_num) hplace.le
    · have hless : m + 2 ≤ 2 ^ 53 := by
        have hbound := hm.bound
        omega
      have hmq : (m : ℚ) + 2 ≤ 2 ^ 53 := by exact_mod_cast hless
      refine mul_le_mul_of_nonneg_right ?_ hplace.le
      linarith
  refine (h.high.trans hbound).trans_eq ?_
  rw [Json.Number.lastPlace_eq]
  push_cast
  ring

/-- The largest double is written with digits that are scaled to it. -/
theorem shortest_largest : shortest (2 ^ 53 - 1) 971 = ⟨17976931348623157, 292⟩ := by
  decide +kernel

theorem scaled_largest : (scaled 17976931348623157 292).isSome = true := by
  decide +kernel

theorem lt_of_pow_lt_pow {k a b : ℕ} (h : 10 ^ k < (10 ^ a) ^ b) : k < a * b := by
  rw [← Nat.pow_mul] at h
  exact (Nat.pow_lt_pow_iff_right (by decide)).mp h

/-- The shortest digits of a double do not overflow when they are scaled. -/
theorem scaled_shortest (hm : Canonical m e) (hexponent : 0 ≤ (shortest m e).exponent) :
    (scaled (shortest m e).digits (shortest m e).exponent).isSome = true := by
  obtain ⟨hnear, hdigits, hsmall⟩ := shortest_spec hm
  by_cases hlargest : m = 2 ^ 53 - 1 ∧ e = 971
  · obtain ⟨rfl, rfl⟩ := hlargest
    rw [shortest_largest]
    exact scaled_largest
  · have hle := near_le hm hnear hlargest
    rcases hdigits with hpos | hzero
    · obtain ⟨k, hk⟩ := Int.eq_ofNat_of_zero_le hexponent
      rw [Decimal.value, hk, zpow_natCast] at hle
      have hproduct : (shortest m e).digits * 10 ^ k ≤ (2 ^ 54 - 3) * halfPlace := by
        exact_mod_cast hle
      have hlt : (2 ^ 54 - 3) * halfPlace < (10 ^ 103) ^ 3 := by decide +kernel
      have hfew : k < 103 * 3 := by
        refine lt_of_pow_lt_pow ?_
        calc 10 ^ k ≤ (shortest m e).digits * 10 ^ k := Nat.le_mul_of_pos_left _ hpos
          _ ≤ (2 ^ 54 - 3) * halfPlace := hproduct
          _ < (10 ^ 103) ^ 3 := hlt
      rw [hk]
      refine Json.Number.scaled_nonnegative hfew (Nat.le_min.mpr ⟨hsmall, ?_⟩)
      exact (Nat.le_div_iff_mul_le (by positivity)).mpr hproduct
    · rw [hzero]
      exact Json.Number.scaled_nonnegative (by decide) (Nat.zero_le _)

/-- The reader makes of the shortest digits of a double the double nearest to what they say. -/
def ReadsNearest (x : Double) : Prop :=
  ∀ t ∈ (Json.Token.numeral (Layout.json.chars x)).map Prod.fst,
    ofNumeral t = some (.float t.nearest)

instance : Decidable x.ReadsNearest :=
  inferInstanceAs (Decidable (∀ t ∈ (Json.Token.numeral (Layout.json.chars x)).map Prod.fst,
    ofNumeral t = some (.float t.nearest)))

def reread (x : Double) : Double :=
  match (Json.Token.numeral (Layout.json.chars x)).bind fun r => ofNumeral r.1 with
  | some (.float y) => y
  | _ => x

/-- The shortest digits of a finite double are read as a double, and those nearest to them as the
double itself. -/
theorem numeral_chars (h : x.isFinite = true) :
    ∃ t, (∀ rest, Ends rest →
        Json.Token.numeral (Layout.json.chars x ++ rest) = some (t, rest)) ∧
      ofNumeral t = some (.float x.reread) ∧ t.nearest = x := by
  obtain ⟨negative, m, e, hreading⟩ := isFinite_iff.mp h
  obtain ⟨hm, hx⟩ := eq_ofMagnitude hreading
  obtain ⟨hnear, hdigits, hsmall⟩ := shortest_spec hm
  obtain ⟨s, hchars, hs⟩ := Spelling.exists_spells hdigits hsmall
  have hread : ∀ rest, Ends rest →
      Json.Token.numeral (Layout.json.chars x ++ rest) = some (s.numeral negative, rest) := by
    intro rest hrest
    rw [chars_json hreading, hchars]
    exact Spelling.numeral_append hs.sound hrest negative
  have hfloat : ∃ y, ofNumeral (s.numeral negative) = some (.float y) := by
    have hmarked : (s.numeral negative).fraction.isSome = true ∨
        (s.numeral negative).exponent.isSome = true := by
      rw [Spelling.numeral, Option.isSome_map, Option.isSome_map]
      exact hs.marked
    have hfits : (s.numeral negative).significand ≤ largestSignificand :=
      hs.small.trans (by decide)
    have hscaled : (scaled (s.numeral negative).significand
        (s.numeral negative).power).isSome = true := by
      rcases Int.lt_or_le (s.numeral false).power 0 with hpower | hpower
      · show (scaled (s.numeral false).significand (s.numeral false).power).isSome = true
        rw [scaled, if_pos hpower]
        rfl
      · have hshortest := scaled_shortest hm
        rw [← hs.undivided hpower] at hshortest
        exact hshortest hpower
    obtain ⟨y, hy⟩ := Option.isSome_iff_exists.mp hscaled
    refine ⟨signed negative y, ?_⟩
    rw [Json.Number.ofNumeral_fits hmarked hfits, hy]
    rfl
  obtain ⟨y, hy⟩ := hfloat
  refine ⟨s.numeral negative, hread, ?_, ?_⟩
  · have hempty := hread [] Json.ends_nil
    rw [List.append_nil] at hempty
    rw [hy, reread, hempty]
    show some (Json.Number.float y) = some (.float (match ofNumeral (s.numeral negative) with
      | some (.float y) => y
      | _ => x))
    rw [hy]
  · have hnear' : Near m e (s.numeral negative).decimal.value := by
      have hvalue : (s.numeral negative).decimal.value = (shortest m e).value := hs.value
      rw [hvalue]
      exact hnear
    rw [Numeral.nearest_eq hm hnear', hx]
    rfl

theorem reread_eq (hx : x.isFinite = true) (h : x.ReadsNearest) : x.reread = x := by
  obtain ⟨t, hread, ht, hnearest⟩ := numeral_chars hx
  have hempty := hread [] Json.ends_nil
  rw [List.append_nil] at hempty
  have hmem := h t (by rw [hempty]; rfl)
  rw [ht, hnearest] at hmem
  exact Json.Number.float.inj (Option.some.inj hmem)

end Double
end TableSearch
