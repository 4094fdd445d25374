/-
The shortest decimal of a double rounds to it.

The search looks at one grid of powers of ten after another, from coarse to fine, for a multiple
that rounds to the double.  Each multiple it takes does (`Interval.multiple?_eq_some`), and the
last grid has one, since its steps are smaller than the interval (`Interval.near_fine`).  Where
the grids begin is the place of the first digit, which is estimated with a fraction for the
logarithm of two and then corrected (`firstPlace_spec`).
-/
import TableSearch.Double.Shortest
import TableSearch.Proofs.Double.Rounding

namespace TableSearch
namespace Decimal

open Double (Canonical Near gap unscaled)

def value (d : Decimal) : ℚ :=
  d.digits * 10 ^ d.exponent

theorem overTen_eq (num : ℕ) {den : ℕ} (hden : 0 < den) (k : ℤ) :
    0 < (overTen num den k).2 ∧
      ((overTen num den k).1 : ℚ) / (overTen num den k).2 = num / den / 10 ^ k :=
  Double.ratio_over_zpow (by decide) num hden k rfl

/-! ## The place of the first digit -/

theorem two_pow_le (b : ℕ) : 2 ^ b ≤ 10 ^ (28 * b / 93 + 1) := by
  have hrest : ∀ r < 93, 2 ^ r ≤ 10 ^ (28 * r / 93 + 1) := by decide
  calc 2 ^ b = (2 ^ 93) ^ (b / 93) * 2 ^ (b % 93) := by
        rw [← Nat.pow_mul, ← Nat.pow_add, Nat.div_add_mod]
    _ ≤ (10 ^ 28) ^ (b / 93) * 10 ^ (28 * (b % 93) / 93 + 1) :=
        Nat.mul_le_mul (Nat.pow_le_pow_left (by decide) _) (hrest _ (Nat.mod_lt b (by decide)))
    _ = 10 ^ (28 * b / 93 + 1) := by
        rw [← Nat.pow_mul, ← Nat.pow_add]
        congr 1
        omega

theorem ten_pow_le (b : ℕ) : 10 ^ (59 * b / 196) ≤ 2 ^ b := by
  have hrest : ∀ r < 196, 10 ^ (59 * r / 196) ≤ 2 ^ r := by decide +kernel
  calc 10 ^ (59 * b / 196) = (10 ^ 59) ^ (b / 196) * 10 ^ (59 * (b % 196) / 196) := by
        rw [← Nat.pow_mul, ← Nat.pow_add]
        congr 1
        omega
    _ ≤ (2 ^ 196) ^ (b / 196) * 2 ^ (b % 196) :=
        Nat.mul_le_mul (Nat.pow_le_pow_left (by decide) _) (hrest _ (Nat.mod_lt b (by decide)))
    _ = 2 ^ b := by rw [← Nat.pow_mul, ← Nat.pow_add, Nat.div_add_mod]

theorem two_zpow_le {b p : ℤ} (hb : -1100 ≤ b) (hb' : b ≤ 1100) (hp : b * 30103 / 100000 + 2 ≤ p) :
    (2 : ℚ) ^ b ≤ 10 ^ p := by
  rcases le_total 0 b with h | h
  · obtain ⟨n, rfl⟩ := Int.eq_ofNat_of_zero_le h
    have hle : (2 : ℚ) ^ n ≤ 10 ^ (28 * n / 93 + 1) := by exact_mod_cast two_pow_le n
    calc (2 : ℚ) ^ (n : ℤ) = 2 ^ n := zpow_natCast 2 n
      _ ≤ 10 ^ (28 * n / 93 + 1) := hle
      _ = 10 ^ ((28 * n / 93 + 1 : ℕ) : ℤ) := (zpow_natCast 10 _).symm
      _ ≤ 10 ^ p := zpow_le_zpow_right₀ (by norm_num) (by omega)
  · obtain ⟨n, hn⟩ := Int.eq_ofNat_of_zero_le (by omega : 0 ≤ -b)
    obtain rfl : b = -(n : ℤ) := by omega
    have hle : (10 : ℚ) ^ (59 * n / 196) ≤ 2 ^ n := by exact_mod_cast ten_pow_le n
    calc (2 : ℚ) ^ (-(n : ℤ)) = (2 ^ n)⁻¹ := by rw [zpow_neg, zpow_natCast]
      _ ≤ (10 ^ (59 * n / 196))⁻¹ := inv_anti₀ (by positivity) hle
      _ = 10 ^ (-((59 * n / 196 : ℕ) : ℤ)) := by rw [zpow_neg, zpow_natCast]
      _ ≤ 10 ^ p := zpow_le_zpow_right₀ (by norm_num) (by omega)

theorem ten_zpow_le {b p : ℤ} (hb : -1100 ≤ b) (hb' : b ≤ 1100) (hp : p ≤ b * 30103 / 100000 - 4) :
    (10 : ℚ) ^ p ≤ 2 ^ (b - 1) := by
  rcases le_total 1 b with h | h
  · obtain ⟨n, hn⟩ := Int.eq_ofNat_of_zero_le (by omega : 0 ≤ b - 1)
    have hle : (10 : ℚ) ^ (59 * n / 196) ≤ 2 ^ n := by exact_mod_cast ten_pow_le n
    calc (10 : ℚ) ^ p ≤ 10 ^ ((59 * n / 196 : ℕ) : ℤ) :=
          zpow_le_zpow_right₀ (by norm_num) (by omega)
      _ = 10 ^ (59 * n / 196) := zpow_natCast 10 _
      _ ≤ 2 ^ n := hle
      _ = 2 ^ (b - 1) := by rw [hn, zpow_natCast]
  · obtain ⟨n, hn⟩ := Int.eq_ofNat_of_zero_le (by omega : 0 ≤ 1 - b)
    have hle : (2 : ℚ) ^ n ≤ 10 ^ (28 * n / 93 + 1) := by exact_mod_cast two_pow_le n
    calc (10 : ℚ) ^ p ≤ 10 ^ (-((28 * n / 93 + 1 : ℕ) : ℤ)) :=
          zpow_le_zpow_right₀ (by norm_num) (by omega)
      _ = (10 ^ (28 * n / 93 + 1))⁻¹ := by rw [zpow_neg, zpow_natCast]
      _ ≤ (2 ^ n)⁻¹ := inv_anti₀ (by positivity) hle
      _ = 2 ^ (-(n : ℤ)) := by rw [zpow_neg, zpow_natCast]
      _ = 2 ^ (b - 1) := by
        congr 1
        omega

theorem le_overTen_iff (num : ℕ) {den : ℕ} (hden : 0 < den) (k : ℤ) :
    (overTen num den k).2 ≤ (overTen num den k).1 ↔ (10 : ℚ) ^ k ≤ num / den := by
  obtain ⟨hpos, hratio⟩ := overTen_eq num hden k
  have hposq : (0 : ℚ) < (overTen num den k).2 := by exact_mod_cast hpos
  have hten : (0 : ℚ) < 10 ^ k := zpow_pos (by norm_num) k
  rw [← one_le_div hten, ← hratio, one_le_div hposq, Nat.cast_le]

theorem placeBelow_spec {num den : ℕ} (hden : 0 < den) (fuel : ℕ) {p : ℤ}
    (hbelow : (num : ℚ) / den < 10 ^ p) (habove : (10 : ℚ) ^ (p - 1 - fuel) ≤ num / den) :
    (10 : ℚ) ^ (placeBelow num den fuel p - 1) ≤ num / den ∧
      (num : ℚ) / den < 10 ^ placeBelow num den fuel p := by
  induction fuel generalizing p with
  | zero =>
    rw [Nat.cast_zero, sub_zero] at habove
    exact ⟨habove, hbelow⟩
  | succ fuel ih =>
    have hiff := le_overTen_iff num hden (p - 1)
    unfold placeBelow
    dsimp only
    split
    · next h => exact ⟨hiff.mp h, hbelow⟩
    · next h =>
      refine ih (not_le.mp fun hle => h (hiff.mpr hle)) ?_
      convert habove using 2
      push_cast
      ring

/-- The place of the first digit of a double. -/
theorem firstPlace_spec {m : ℕ} {e : ℤ} (hm : 0 < m) (h : Canonical m e) :
    (10 : ℚ) ^ (firstPlace m e - 1) ≤ m * 2 ^ e ∧ (m : ℚ) * 2 ^ e < 10 ^ firstPlace m e := by
  obtain ⟨hpos, hratio⟩ := Double.unscaled_eq m Nat.one_pos (-e)
  have hvalue : ((unscaled m 1 (-e)).1 : ℚ) / (unscaled m 1 (-e)).2 = m * 2 ^ e := by
    rw [hratio, Nat.cast_one, div_one, zpow_neg, div_inv_eq_mul]
  obtain ⟨hlow, hhigh⟩ := Double.log2_bounds hm
  have hlog : m.log2 < 53 := (Nat.log2_lt hm.ne').mpr h.bound
  have hsmallest := h.smallest
  have hlargest := h.largest
  unfold firstPlace
  dsimp only
  rw [← hvalue]
  refine placeBelow_spec hpos 5 ?_ ?_
  · rw [hvalue]
    calc (m : ℚ) * 2 ^ e < 2 ^ ((m.log2 : ℤ) + 1) * 2 ^ e := by gcongr
      _ = 2 ^ ((m.log2 : ℤ) + 1 + e) := (zpow_add₀ two_ne_zero _ _).symm
      _ ≤ 10 ^ placeBound m e := two_zpow_le (by omega) (by omega) le_rfl
  · rw [hvalue]
    calc (10 : ℚ) ^ (placeBound m e - 1 - (5 : ℕ)) ≤ 2 ^ ((m.log2 : ℤ) + 1 + e - 1) := by
          refine ten_zpow_le (by omega) (by omega) ?_
          unfold placeBound
          push_cast
          omega
      _ = 2 ^ (m.log2 : ℤ) * 2 ^ e := by
          rw [← zpow_add₀ two_ne_zero]
          congr 1
          ring
      _ ≤ m * 2 ^ e := by gcongr

/-! ## Multiples of a power of ten in the interval -/

namespace Interval

variable {m : ℕ} {e k : ℤ} {x : ℕ}

/-- The unit of the interval in steps of `10 ^ k`, as numerator and denominator. -/
def step (m : ℕ) (e k : ℤ) : ℕ × ℕ :=
  overTen (around m e).unit.1 (around m e).unit.2 k

theorem step_eq (m : ℕ) (e k : ℤ) :
    0 < (step m e k).2 ∧ ((step m e k).1 : ℚ) = 2 ^ e / 4 / 10 ^ k * (step m e k).2 := by
  obtain ⟨hunit, hratio⟩ := Double.unscaled_eq 1 Nat.one_pos (2 - e)
  obtain ⟨hpos, hstep⟩ := overTen_eq (unscaled 1 1 (2 - e)).1 hunit k
  refine ⟨hpos, ?_⟩
  have hposq : ((step m e k).2 : ℚ) ≠ 0 := by exact_mod_cast hpos.ne'
  rw [← div_eq_iff hposq]
  calc ((step m e k).1 : ℚ) / (step m e k).2 = (1 : ℕ) / (1 : ℕ) / 2 ^ (2 - e) / 10 ^ k := by
        rw [← hratio, ← hstep]
        rfl
    _ = 2 ^ e / 4 / 10 ^ k := by
        rw [zpow_sub₀ two_ne_zero]
        norm_num

theorem low_eq (hm : 0 < m) (e : ℤ) : ((around m e).low : ℚ) = 4 * (m - gap m e) := by
  show ((4 * m - (if m = 2 ^ 52 ∧ e ≠ -1074 then 1 else 2) : ℕ) : ℚ) = _
  unfold gap
  split
  · rw [Nat.cast_sub (by omega)]
    push_cast
    ring
  · rw [Nat.cast_sub (by omega)]
    push_cast
    ring

/-- The interval holds a multiple of `10 ^ k` when this rounds to the double. -/
theorem holds_iff (hm : 0 < m) :
    (around m e).holds (step m e k).1 (step m e k).2 x = true ↔ Near m e (x * 10 ^ k) := by
  obtain ⟨hpos, hstep⟩ := step_eq m e k
  have hposq : (0 : ℚ) < (step m e k).2 := by exact_mod_cast hpos
  have hten : (0 : ℚ) < 10 ^ k := zpow_pos (by norm_num) k
  have hhigh : ((around m e).high : ℚ) = 4 * (m + 1 / 2) := by
    show ((4 * m + 2 : ℕ) : ℚ) = _
    push_cast
    ring
  have hcancel : ∀ c : ℚ, 4 * c * (2 ^ e / 4 / 10 ^ k * (step m e k).2) =
      c * 2 ^ e / 10 ^ k * (step m e k).2 := by
    intro c
    ring
  have hlowLe : (around m e).low * (step m e k).1 ≤ x * (step m e k).2 ↔
      (m - gap m e) * 2 ^ e ≤ x * 10 ^ k := by
    rw [← Nat.cast_le (α := ℚ), Nat.cast_mul, Nat.cast_mul, low_eq hm, hstep, hcancel,
      mul_le_mul_iff_left₀ hposq, div_le_iff₀ hten]
  have hlowLt : (around m e).low * (step m e k).1 < x * (step m e k).2 ↔
      (m - gap m e) * 2 ^ e < x * 10 ^ k := by
    rw [← Nat.cast_lt (α := ℚ), Nat.cast_mul, Nat.cast_mul, low_eq hm, hstep, hcancel,
      mul_lt_mul_iff_left₀ hposq, div_lt_iff₀ hten]
  have hhighLe : x * (step m e k).2 ≤ (around m e).high * (step m e k).1 ↔
      x * 10 ^ k ≤ ((m : ℚ) + 1 / 2) * 2 ^ e := by
    rw [← Nat.cast_le (α := ℚ), Nat.cast_mul, Nat.cast_mul, hhigh, hstep, hcancel,
      mul_le_mul_iff_left₀ hposq, le_div_iff₀ hten]
  have hhighLt : x * (step m e k).2 < (around m e).high * (step m e k).1 ↔
      x * 10 ^ k < ((m : ℚ) + 1 / 2) * 2 ^ e := by
    rw [← Nat.cast_lt (α := ℚ), Nat.cast_mul, Nat.cast_mul, hhigh, hstep, hcancel,
      mul_lt_mul_iff_left₀ hposq, lt_div_iff₀ hten]
  unfold holds
  have hclosed : (around m e).closed = decide (m % 2 = 0) := rfl
  rw [hclosed]
  rcases Nat.mod_two_eq_zero_or_one m with heven | hodd
  · rw [heven, decide_eq_true rfl, if_pos rfl, Bool.and_eq_true, decide_eq_true_eq,
      decide_eq_true_eq, hlowLe, hhighLe]
    exact ⟨fun h => ⟨h.1, h.2, fun hodd => by omega⟩, fun h => ⟨h.low, h.high⟩⟩
  · rw [hodd, decide_eq_false one_ne_zero, if_neg Bool.false_ne_true, Bool.and_eq_true,
      decide_eq_true_eq, decide_eq_true_eq, hlowLt, hhighLt]
    exact ⟨fun h => ⟨h.1.le, h.2.le, fun _ => h⟩, fun h => h.odd hodd⟩

def below (m : ℕ) (e k : ℤ) : ℕ :=
  (around m e).value * (step m e k).1 / (step m e k).2

theorem below_spec (m : ℕ) (e k : ℤ) :
    (below m e k : ℚ) * 10 ^ k ≤ m * 2 ^ e ∧
      (m : ℚ) * 2 ^ e < ((below m e k : ℚ) + 1) * 10 ^ k := by
  obtain ⟨hpos, hstep⟩ := step_eq m e k
  have hposq : (0 : ℚ) < (step m e k).2 := by exact_mod_cast hpos
  have hten : (0 : ℚ) < 10 ^ k := zpow_pos (by norm_num) k
  have hvalue : ((around m e).value * (step m e k).1 : ℚ) =
      m * 2 ^ e / 10 ^ k * (step m e k).2 := by
    have hfour : ((around m e).value : ℚ) = 4 * m := by
      show ((4 * m : ℕ) : ℚ) = _
      push_cast
      rfl
    rw [hfour, hstep]
    ring
  have hle := Nat.div_mul_le_self ((around m e).value * (step m e k).1) (step m e k).2
  have hlt := Nat.lt_div_mul_add (a := (around m e).value * (step m e k).1) hpos
  constructor
  · rw [← le_div_iff₀ hten, ← mul_le_mul_iff_left₀ hposq, ← hvalue]
    exact_mod_cast hle
  · rw [← div_lt_iff₀ hten, ← mul_lt_mul_iff_left₀ hposq, ← hvalue, add_mul, one_mul]
    exact_mod_cast hlt

/-- The multiple that is taken is one of the two next to the double, and rounds to it. -/
theorem multiple?_eq_some {tie : Tie} (hm : 0 < m) (h : (around m e).multiple? tie k = some x) :
    (x = below m e k ∨ x = below m e k + 1) ∧ Near m e (x * 10 ^ k) := by
  rw [← holds_iff hm]
  unfold multiple? at h
  dsimp only at h
  split at h
  · next hbelow habove =>
    have htaken : ∀ {y}, some y = some x →
        (y = below m e k ∨ y = below m e k + 1) →
        (x = below m e k ∨ x = below m e k + 1) ∧
          (around m e).holds (step m e k).1 (step m e k).2 x = true := by
      intro y hy hor
      cases hy
      refine ⟨hor, ?_⟩
      rcases hor with rfl | rfl
      · exact hbelow
      · exact habove
    split at h
    · exact htaken h (.inl rfl)
    · split at h
      · exact htaken h (.inr rfl)
      · cases tie with
        | up => exact htaken h (.inr rfl)
        | toEven =>
          refine htaken h ?_
          split
          · exact .inl rfl
          · exact .inr rfl
  · next hbelow _ =>
    cases h
    exact ⟨.inl rfl, hbelow⟩
  · next _ habove =>
    cases h
    exact ⟨.inr rfl, habove⟩
  · cases h

/-- When no multiple is taken, the two next to the double do not round to it. -/
theorem multiple?_eq_none {tie : Tie} (hm : 0 < m) (h : (around m e).multiple? tie k = none) :
    ¬Near m e (below m e k * 10 ^ k) ∧ ¬Near m e ((below m e k + 1 : ℕ) * 10 ^ k) := by
  rw [← holds_iff hm, ← holds_iff hm]
  unfold multiple? at h
  dsimp only at h
  split at h
  · split at h
    · cases h
    · split at h
      · cases h
      · cases tie <;> cases h
  · cases h
  · cases h
  · next hbelow habove => exact ⟨ne_true_of_eq_false hbelow, ne_true_of_eq_false habove⟩

/-- A grid with seventeen digits has a multiple that rounds to the double: its steps are smaller
than the interval. -/
theorem near_fine (h : Canonical m e) (hfine : (10 : ℚ) ^ (k + 16) ≤ m * 2 ^ e) :
    Near m e (below m e k * 10 ^ k) ∨ Near m e ((below m e k + 1 : ℕ) * 10 ^ k) := by
  by_contra hnot
  obtain ⟨hbelow, habove⟩ := not_or.mp hnot
  obtain ⟨hle, hlt⟩ := below_spec m e k
  have htwo : (0 : ℚ) < 2 ^ e := zpow_pos two_pos e
  have hgap : 0 ≤ gap m e := by
    unfold gap
    split <;> norm_num
  have hlow : (below m e k : ℚ) * 10 ^ k ≤ (m - gap m e) * 2 ^ e := by
    by_contra hgt
    rw [not_le] at hgt
    exact hbelow ⟨hgt.le, by nlinarith, fun _ => ⟨hgt, by nlinarith⟩⟩
  have hhigh : ((m : ℚ) + 1 / 2) * 2 ^ e ≤ (below m e k + 1) * 10 ^ k := by
    by_contra hgt
    rw [not_le] at hgt
    rw [Nat.cast_add_one] at habove
    exact habove ⟨by nlinarith, hgt.le, fun _ => ⟨by nlinarith, hgt⟩⟩
  have hstep : (1 / 2 + gap m e) * 2 ^ e ≤ (10 : ℚ) ^ k := by linarith
  have hsixteen : (10 : ℚ) ^ (k + 16) = 10 ^ 16 * 10 ^ k := by
    rw [zpow_add₀ (by norm_num), mul_comm]
    norm_num
  have hwide : 10 ^ 16 * (1 / 2 + gap m e) ≤ (m : ℚ) := by
    rw [hsixteen] at hfine
    have hmul : 10 ^ 16 * (1 / 2 + gap m e) * 2 ^ e ≤ (m : ℚ) * 2 ^ e := by linarith
    exact le_of_mul_le_mul_right hmul htwo
  unfold gap at hwide
  split at hwide
  · next hpower =>
    rw [hpower.1] at hwide
    norm_num at hwide
  · have hbound : (m : ℚ) < (2 ^ 53 : ℕ) := by exact_mod_cast h.bound
    norm_num at hbound hwide
    linarith

/-- The search ends on its last grid at the latest. -/
theorem search_spec {tie : Tie} (fuel : ℕ)
    (h : ((around m e).multiple? tie (k - fuel)).isSome = true) :
    ∃ x j, (around m e).search tie (fuel + 1) k = ⟨x, j⟩ ∧ k - fuel ≤ j ∧ j ≤ k ∧
      (around m e).multiple? tie j = some x := by
  induction fuel generalizing k with
  | zero =>
    rw [Nat.cast_zero, sub_zero] at h
    obtain ⟨x, hx⟩ := Option.isSome_iff_exists.mp h
    refine ⟨x, k, ?_, by simp, le_rfl, hx⟩
    rw [search, hx]
  | succ fuel ih =>
    cases hfirst : (around m e).multiple? tie k with
    | some x =>
      refine ⟨x, k, ?_, by omega, le_rfl, hfirst⟩
      rw [search, hfirst]
    | none =>
      have hlast : k - 1 - (fuel : ℤ) = k - (fuel + 1 : ℕ) := by
        push_cast
        ring
      obtain ⟨x, j, hsearch, hge, hle, hx⟩ := ih (k := k - 1) (by rw [hlast]; exact h)
      refine ⟨x, j, ?_, by omega, by omega, hx⟩
      rw [search, hfirst]
      exact hsearch

end Interval

/-! ## Zeros at the end -/

theorem value_stripZeros (fuel : ℕ) (d : Decimal) : (stripZeros fuel d).value = d.value := by
  induction fuel generalizing d with
  | zero => rfl
  | succ fuel ih =>
    unfold stripZeros
    split
    · next h =>
      rw [value, value, h]
      simp
    · split
      · next h =>
        rw [ih, value, value]
        have hdigits : (d.digits : ℚ) = (d.digits / 10 : ℕ) * 10 := by
          exact_mod_cast (Nat.div_mul_cancel (Nat.dvd_of_mod_eq_zero h)).symm
        rw [hdigits, zpow_add_one₀ (by norm_num)]
        ring
      · rfl

theorem digits_stripZeros (fuel : ℕ) (d : Decimal) (h : 0 < d.digits) :
    0 < (stripZeros fuel d).digits ∧ (stripZeros fuel d).digits ≤ d.digits := by
  induction fuel generalizing d with
  | zero => exact ⟨h, le_rfl⟩
  | succ fuel ih =>
    unfold stripZeros
    rw [if_neg h.ne']
    split
    · next hzero =>
      obtain ⟨hpos, hle⟩ := ih ⟨d.digits / 10, d.exponent + 1⟩ (by dsimp only; omega)
      dsimp only at hle
      exact ⟨hpos, by omega⟩
    · exact ⟨h, le_rfl⟩

/-! ## The shortest decimal -/

/-- The shortest decimal of a positive double rounds to it, and is `10 ^ 17` at most without its
exponent. -/
theorem shortest_spec (tie : Tie) {m : ℕ} {e : ℤ} (hm : 0 < m) (h : Canonical m e) :
    Near m e (shortest tie m e).value ∧ 0 < (shortest tie m e).digits ∧
      (shortest tie m e).digits ≤ 10 ^ 17 := by
  obtain ⟨hfirst, hfirst'⟩ := firstPlace_spec hm h
  unfold shortest
  generalize firstPlace m e = p at *
  have hlast : ((Interval.around m e).multiple? tie (p - (17 : ℕ))).isSome = true := by
    cases hnone : (Interval.around m e).multiple? tie (p - (17 : ℕ)) with
    | some x => rfl
    | none =>
      obtain ⟨hbelow, habove⟩ := Interval.multiple?_eq_none hm hnone
      have hfine : (10 : ℚ) ^ (p - (17 : ℕ) + 16) ≤ m * 2 ^ e := by
        convert hfirst using 2
        push_cast
        ring
      exact ((Interval.near_fine h hfine).elim hbelow habove).elim
  obtain ⟨x, k, hsearch, hge, hle, hx⟩ := Interval.search_spec 17 hlast
  obtain ⟨hor, hnear⟩ := Interval.multiple?_eq_some hm hx
  have hten : (0 : ℚ) < 10 ^ k := zpow_pos (by norm_num) k
  have hpos : 0 < x := by
    have htwo : (0 : ℚ) < 2 ^ e := zpow_pos two_pos e
    have hmq : (1 : ℚ) ≤ m := by exact_mod_cast hm
    have hgap := Double.gap_le m e
    have hlow := hnear.low
    have hvalue : (0 : ℚ) < x * 10 ^ k := by nlinarith
    exact_mod_cast pos_of_mul_pos_left hvalue hten.le
  have hbound : x ≤ 10 ^ 17 := by
    have hbelow : Interval.below m e k < 10 ^ (p - k).toNat := by
      obtain ⟨hfloor, _⟩ := Interval.below_spec m e k
      have hlt : (Interval.below m e k : ℚ) * 10 ^ k < 10 ^ ((p - k).toNat : ℤ) * 10 ^ k := by
        rw [← zpow_add₀ (by norm_num), Int.toNat_of_nonneg (by omega), sub_add_cancel]
        exact hfloor.trans_lt hfirst'
      have hlt' := lt_of_mul_lt_mul_right hlt hten.le
      rw [zpow_natCast] at hlt'
      exact_mod_cast hlt'
    have hplaces : 10 ^ (p - k).toNat ≤ 10 ^ 17 :=
      Nat.pow_le_pow_right (by decide) (by push_cast at hge; omega)
    rcases hor with rfl | rfl <;> omega
  rw [hsearch]
  obtain ⟨hdigits, hdigits'⟩ := digits_stripZeros x.log2.succ ⟨x, k⟩ hpos
  refine ⟨?_, hdigits, hdigits'.trans hbound⟩
  unfold normal
  rw [value_stripZeros]
  exact hnear

end Decimal
end TableSearch
