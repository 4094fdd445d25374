/-
Rounding to doubles.

`ofRatio` is exact arithmetic on natural numbers.  Here it is read in the rationals: a ratio has
one exponent at which a double keeps it (`Kept`) and one nearest significand there
(`NearestEven`), and `ofRatio_eq` says that `ofRatio` puts these two together.  What follows are
the two facts that other modules use.  Rounding does not go past a double (`ofRatio_le`), and a
number in the interval around a double rounds to it (`ofRatio_near`).
-/
import Mathlib.Algebra.Order.Field.Power
import Mathlib.Data.Rat.Floor
import Mathlib.Tactic.FieldSimp
import Mathlib.Tactic.Linarith
import Mathlib.Tactic.Positivity
import Mathlib.Tactic.Ring
import TableSearch.Double.Basic

namespace TableSearch
namespace Double

/-! ## Ratios -/

/-- A ratio over a power of `b`, with the power in the part that makes it a whole number. -/
theorem ratio_over_zpow {b : ℕ} (hb : 0 < b) (num : ℕ) {den : ℕ} (hden : 0 < den) (e : ℤ)
    {r : ℕ × ℕ}
    (hr : r = if 0 ≤ e then (num, den * b ^ e.toNat) else (num * b ^ (-e).toNat, den)) :
    0 < r.2 ∧ (r.1 : ℚ) / r.2 = num / den / (b : ℚ) ^ e := by
  subst hr
  have hbq : (b : ℚ) ≠ 0 := by exact_mod_cast hb.ne'
  split
  · next h =>
    obtain ⟨k, rfl⟩ := Int.eq_ofNat_of_zero_le h
    refine ⟨by positivity, ?_⟩
    simp only [Int.toNat_natCast]
    push_cast
    rw [zpow_natCast, div_div]
  · next h =>
    obtain ⟨k, hk⟩ := Int.eq_ofNat_of_zero_le (by omega : 0 ≤ -e)
    obtain rfl : e = -(k : ℤ) := by omega
    refine ⟨hden, ?_⟩
    simp only [neg_neg, Int.toNat_natCast]
    push_cast
    rw [zpow_neg, zpow_natCast]
    field_simp

theorem unscaled_eq (num : ℕ) {den : ℕ} (hden : 0 < den) (e : ℤ) :
    0 < (unscaled num den e).2 ∧
      ((unscaled num den e).1 : ℚ) / (unscaled num den e).2 = num / den / 2 ^ e :=
  ratio_over_zpow two_pos num hden e rfl

theorem log2_bounds {n : ℕ} (h : 0 < n) :
    (2 : ℚ) ^ (n.log2 : ℤ) ≤ n ∧ (n : ℚ) < 2 ^ ((n.log2 : ℤ) + 1) := by
  constructor
  · rw [zpow_natCast]
    exact_mod_cast Nat.log2_self_le h.ne'
  · have hlt : n < 2 ^ (n.log2 + 1) := Nat.lt_log2_self
    have hcast : ((n.log2 : ℤ) + 1) = ((n.log2 + 1 : ℕ) : ℤ) := by push_cast; rfl
    rw [hcast, zpow_natCast]
    exact_mod_cast hlt

/-! ## The exponent that is kept -/

/-- A number lies where doubles keep the exponent `e`. -/
structure Kept (q : ℚ) (e : ℤ) : Prop where
  smallest : -1074 ≤ e
  below : q < 2 ^ 53 * 2 ^ e
  above : e = -1074 ∨ 2 ^ 52 * 2 ^ e ≤ q

theorem Kept.le {q r : ℚ} {e f : ℤ} (he : Kept q e) (hf : Kept r f) (h : q ≤ r) : e ≤ f := by
  by_contra hlt
  have habove := he.above.resolve_left (by have := hf.smallest; omega)
  have hpow : (2 : ℚ) ^ (f + 1) ≤ 2 ^ e := zpow_le_zpow_right₀ one_le_two (by omega)
  rw [zpow_add_one₀ two_ne_zero] at hpow
  have hbelow := hf.below
  linarith

theorem Kept.unique {q : ℚ} {e f : ℤ} (he : Kept q e) (hf : Kept q f) : e = f :=
  le_antisymm (he.le hf le_rfl) (hf.le he le_rfl)

theorem kept_keptExponent {num den : ℕ} (hnum : 0 < num) (hden : 0 < den) :
    Kept (num / den) (keptExponent num den) := by
  obtain ⟨hnum2, hnum2'⟩ := log2_bounds hnum
  obtain ⟨hden2, hden2'⟩ := log2_bounds hden
  have hdenq : (0 : ℚ) < den := by exact_mod_cast hden
  unfold keptExponent
  dsimp only
  generalize hk : (num.log2 : ℤ) - (den.log2 : ℤ) - 52 = k
  obtain ⟨hpos, hratio⟩ := unscaled_eq num hden k
  have hpow : (0 : ℚ) < 2 ^ k := by positivity
  -- The quotient lies between `2 ^ 51` and `2 ^ 53` times `2 ^ k`.
  have hlow : (2 : ℚ) ^ 51 * 2 ^ k < num / den := by
    rw [lt_div_iff₀ hdenq]
    calc (2 : ℚ) ^ 51 * 2 ^ k * den < 2 ^ 51 * 2 ^ k * 2 ^ ((den.log2 : ℤ) + 1) := by gcongr
      _ = 2 ^ (num.log2 : ℤ) := by
        rw [← zpow_natCast, ← zpow_add₀ two_ne_zero, ← zpow_add₀ two_ne_zero]
        congr 1
        push_cast
        omega
      _ ≤ num := hnum2
  have hhigh : (num : ℚ) / den < 2 ^ 53 * 2 ^ k := by
    rw [div_lt_iff₀ hdenq]
    calc (num : ℚ) < 2 ^ ((num.log2 : ℤ) + 1) := hnum2'
      _ = 2 ^ 53 * 2 ^ k * 2 ^ (den.log2 : ℤ) := by
        rw [← zpow_natCast, ← zpow_add₀ two_ne_zero, ← zpow_add₀ two_ne_zero]
        congr 1
        push_cast
        omega
      _ ≤ 2 ^ 53 * 2 ^ k * den := by gcongr
  have hbit : 2 ^ 52 ≤ (unscaled num den k).1 / (unscaled num den k).2 ↔
      (2 : ℚ) ^ 52 * 2 ^ k ≤ num / den := by
    rw [Nat.le_div_iff_mul_le hpos, ← le_div_iff₀ hpow, ← hratio,
      le_div_iff₀ (by exact_mod_cast hpos)]
    norm_cast
  have hhalf : (2 : ℚ) ^ (k - 1) = 2 ^ k / 2 := zpow_sub_one₀ two_ne_zero k
  have hkept : ∀ j : ℤ, (num : ℚ) / den < 2 ^ 53 * 2 ^ j → 2 ^ 52 * 2 ^ j ≤ (num : ℚ) / den →
      Kept (num / den) (max j (-1074)) := by
    intro j hbelow habove
    rcases le_total (-1074) j with h | h
    · rw [max_eq_left h]
      exact ⟨h, hbelow, .inr habove⟩
    · rw [max_eq_right h]
      refine ⟨le_rfl, hbelow.trans_le ?_, .inl rfl⟩
      have : (2 : ℚ) ^ j ≤ 2 ^ (-1074 : ℤ) := zpow_le_zpow_right₀ one_le_two h
      gcongr
  split
  · next h => exact hkept k hhigh (hbit.mp h)
  · next h =>
    refine hkept (k - 1) ?_ ?_
    · rw [hhalf]
      have := lt_of_not_ge (fun hle => h (hbit.mpr hle))
      linarith
    · rw [hhalf]
      linarith

/-! ## Whole numbers nearest to ratios -/

/-- A whole number nearest to `x`, where a half goes to the even neighbour. -/
structure NearestEven (x : ℚ) (r : ℕ) : Prop where
  low : (r : ℚ) - 1 / 2 ≤ x
  high : x ≤ (r : ℚ) + 1 / 2
  odd : r % 2 = 1 → (r : ℚ) - 1 / 2 < x ∧ x < (r : ℚ) + 1 / 2

theorem NearestEven.le {x y : ℚ} {r s : ℕ} (hr : NearestEven x r) (hs : NearestEven y s)
    (h : x ≤ y) : r ≤ s := by
  by_contra hlt
  have hstep : s + 1 ≤ r := by omega
  have hstepq : (s : ℚ) + 1 ≤ r := by exact_mod_cast hstep
  have hlow := hr.low
  have hhigh := hs.high
  -- Both bounds are met, so the neighbours `s` and `s + 1` are both even.
  have hsucc : r = s + 1 := by
    have : (r : ℚ) ≤ s + 1 := by linarith
    exact le_antisymm (by exact_mod_cast this) hstep
  rcases Nat.mod_two_eq_zero_or_one r with heven | hodd
  · have := (hs.odd (by omega)).2
    linarith
  · have := (hr.odd hodd).1
    linarith

theorem NearestEven.unique {x : ℚ} {r s : ℕ} (hr : NearestEven x r) (hs : NearestEven x s) :
    r = s :=
  le_antisymm (hr.le hs le_rfl) (hs.le hr le_rfl)

theorem nearestEven_natCast (r : ℕ) : NearestEven r r :=
  ⟨by linarith, by linarith, fun _ => ⟨by linarith, by linarith⟩⟩

theorem nearestEven_roundHalfEven (n : ℕ) {d : ℕ} (hd : 0 < d) :
    NearestEven (n / d) (roundHalfEven n d) := by
  have hdq : (0 : ℚ) < d := by exact_mod_cast hd
  have hsplit : (n : ℚ) / d = (n / d : ℕ) + ((n % d : ℕ) : ℚ) / d := by
    have hdivmod : (n : ℚ) = d * (n / d : ℕ) + (n % d : ℕ) := by
      exact_mod_cast (Nat.div_add_mod n d).symm
    rw [div_eq_iff hdq.ne', add_mul, div_mul_cancel₀ _ hdq.ne', mul_comm]
    exact hdivmod
  have hless : 2 * (n % d) < d ↔ ((n % d : ℕ) : ℚ) / d < 1 / 2 := by
    rw [div_lt_div_iff₀ hdq two_pos, one_mul, mul_comm]
    norm_cast
  have hmore : d < 2 * (n % d) ↔ (1 : ℚ) / 2 < ((n % d : ℕ) : ℚ) / d := by
    rw [div_lt_div_iff₀ two_pos hdq, one_mul, mul_comm]
    norm_cast
  have hrest : ((n % d : ℕ) : ℚ) / d < 1 := by
    rw [div_lt_one hdq]
    exact_mod_cast Nat.mod_lt n hd
  have hrest' : (0 : ℚ) ≤ ((n % d : ℕ) : ℚ) / d := by positivity
  unfold roundHalfEven
  dsimp only
  rw [hsplit]
  generalize ((n % d : ℕ) : ℚ) / d = rest at *
  generalize n / d = q
  have hsucc : ((q + 1 : ℕ) : ℚ) = q + 1 := Nat.cast_succ q
  split
  · next h =>
    have hlt := hless.mp h
    exact ⟨by linarith, by linarith, fun _ => ⟨by linarith, by linarith⟩⟩
  · next h =>
    split
    · next h' =>
      have hgt := hmore.mp h'
      exact ⟨by linarith, by linarith, fun _ => ⟨by linarith, by linarith⟩⟩
    · next h' =>
      have heq : rest = 1 / 2 :=
        le_antisymm (not_lt.mp fun hlt => h' (hmore.mpr hlt))
          (not_lt.mp fun hlt => h (hless.mpr hlt))
      rcases Nat.mod_two_eq_zero_or_one q with heven | hodd
      · rw [heven, Nat.add_zero]
        exact ⟨by linarith, by linarith, fun hodd => by omega⟩
      · rw [hodd]
        exact ⟨by linarith, by linarith, fun hodd => by omega⟩

/-! ## Doubles as bits -/

/-- A significand and an exponent that a finite double has. -/
structure Canonical (m : ℕ) (e : ℤ) : Prop where
  bound : m < 2 ^ 53
  smallest : -1074 ≤ e
  largest : e ≤ 971
  full : e = -1074 ∨ 2 ^ 52 ≤ m

/-- The lower bits of the double with this significand and exponent. -/
def magnitude (m : ℕ) (e : ℤ) : ℕ :=
  (e + 1074).toNat * 2 ^ 52 + m

theorem magnitude_smallest (m : ℕ) : magnitude m (-1074) = m :=
  Nat.zero_add m

theorem toNat_ofMagnitude {n : ℕ} (h : n < 2 ^ 63) (negative : Bool) :
    (ofMagnitude negative n).bits.toNat = (if negative then 2 ^ 63 else 0) + n := by
  show (UInt64.ofNat _).toNat = _
  rw [UInt64.toNat_ofNat']
  apply Nat.mod_eq_of_lt
  split <;> omega

theorem negative_ofMagnitude {n : ℕ} (h : n < 2 ^ 63) (negative : Bool) :
    (ofMagnitude negative n).negative = negative := by
  rw [Double.negative, toNat_ofMagnitude h]
  cases negative with
  | false =>
    have hzero : ((if false = true then 2 ^ 63 else 0) + n) / 2 ^ 63 = 0 := by
      simp only [Bool.false_eq_true, if_false]
      omega
    rw [hzero]
    rfl
  | true =>
    have hone : ((if true = true then 2 ^ 63 else 0) + n) / 2 ^ 63 = 1 := by
      simp only [if_true]
      omega
    rw [hone]
    rfl

theorem exponentField_ofMagnitude {n : ℕ} (h : n < 2 ^ 63) (negative : Bool) :
    (ofMagnitude negative n).exponentField = n / 2 ^ 52 := by
  rw [exponentField, toNat_ofMagnitude h]
  split <;> omega

theorem fraction_ofMagnitude {n : ℕ} (h : n < 2 ^ 63) (negative : Bool) :
    (ofMagnitude negative n).fraction = n % 2 ^ 52 := by
  rw [fraction, toNat_ofMagnitude h]
  split <;> omega

theorem magnitude_lt {m : ℕ} {e : ℤ} (h : Canonical m e) : magnitude m e < infiniteMagnitude := by
  have hbound := h.bound
  have hlargest := h.largest
  unfold magnitude infiniteMagnitude
  omega

theorem reading_ofMagnitude {m : ℕ} {e : ℤ} (h : Canonical m e) (negative : Bool) :
    (ofMagnitude negative (magnitude m e)).reading = .finite negative m e := by
  have hlt : magnitude m e < 2 ^ 63 := (magnitude_lt h).trans (by decide)
  obtain ⟨hbound, hsmallest, hlargest, hfull⟩ := h
  rw [reading, negative_ofMagnitude hlt, exponentField_ofMagnitude hlt, fraction_ofMagnitude hlt]
  by_cases hm : m < 2 ^ 52
  · obtain rfl : e = -1074 := hfull.resolve_right (by omega)
    rw [magnitude_smallest, Nat.div_eq_of_lt hm, Nat.mod_eq_of_lt hm]
    rfl
  · unfold magnitude at *
    have hfield : ((e + 1074).toNat * 2 ^ 52 + m) / 2 ^ 52 = (e + 1075).toNat := by omega
    have hfraction : 2 ^ 52 + ((e + 1074).toNat * 2 ^ 52 + m) % 2 ^ 52 = m := by omega
    rw [hfield, hfraction, if_neg (by omega), if_neg (by omega)]
    congr 1
    omega

theorem eq_ofMagnitude {x : Double} {negative : Bool} {m : ℕ} {e : ℤ}
    (h : x.reading = .finite negative m e) :
    Canonical m e ∧ x = ofMagnitude negative (magnitude m e) := by
  have hbits : ∀ n : ℕ, (if x.negative then 2 ^ 63 else 0) + n = x.bits.toNat →
      x = ofMagnitude x.negative n := by
    intro n hn
    cases x
    rw [ofMagnitude, hn, UInt64.ofNat_toNat]
  have hnegative : (if x.negative then 2 ^ 63 else 0) = x.bits.toNat / 2 ^ 63 * 2 ^ 63 := by
    have hlt := x.bits.toNat_lt
    unfold Double.negative
    cases hsign : x.bits.toNat / 2 ^ 63 == 1 with
    | false =>
      have hne := ne_of_beq_false hsign
      simp only [Bool.false_eq_true, if_false]
      omega
    | true =>
      rw [eq_of_beq hsign]
      rfl
  have hlt := x.bits.toNat_lt
  unfold reading at h
  split at h
  · split at h <;> cases h
  · next hinfinite =>
    split at h
    · next hzero =>
      cases h
      refine ⟨⟨?_, le_rfl, by decide, .inl rfl⟩, hbits _ ?_⟩
      · unfold fraction
        omega
      · rw [hnegative, magnitude_smallest]
        unfold exponentField at hzero
        unfold fraction
        omega
    · next hzero =>
      cases h
      unfold exponentField at *
      refine ⟨⟨?_, ?_, ?_, .inr ?_⟩, hbits _ ?_⟩
      · unfold fraction
        omega
      · omega
      · omega
      · omega
      · rw [hnegative]
        unfold magnitude fraction
        omega

/-! ## Rounding -/

section Rounding

variable {num den : ℕ}

theorem kept_zero : Kept 0 (-1074) :=
  ⟨le_rfl, by positivity, .inl rfl⟩

/-- Every ratio has its exponent and its nearest significand. -/
theorem exists_nearest (num : ℕ) (hden : 0 < den) :
    ∃ e r, Kept ((num : ℚ) / den) e ∧ NearestEven ((num : ℚ) / den / 2 ^ e) r := by
  rcases Nat.eq_zero_or_pos num with rfl | hnum
  · refine ⟨-1074, 0, ?_, ?_⟩
    · rw [Nat.cast_zero, zero_div]
      exact kept_zero
    · simpa using nearestEven_natCast 0
  · obtain ⟨hpos, hratio⟩ := unscaled_eq num hden (keptExponent num den)
    exact ⟨_, _, kept_keptExponent hnum hden, hratio ▸ nearestEven_roundHalfEven _ hpos⟩

theorem ofRatio_eq (negative : Bool) (hden : 0 < den) {e : ℤ} {r : ℕ}
    (he : Kept ((num : ℚ) / den) e) (hr : NearestEven ((num : ℚ) / den / 2 ^ e) r) :
    ofRatio negative num den = ofMagnitude negative (min (magnitude r e) infiniteMagnitude) := by
  rcases Nat.eq_zero_or_pos num with rfl | hnum
  · rw [Nat.cast_zero, zero_div] at he hr
    obtain rfl := he.unique kept_zero
    rw [zero_div] at hr
    obtain rfl := hr.unique (by simpa using nearestEven_natCast 0)
    rfl
  · obtain ⟨hpos, hratio⟩ := unscaled_eq num hden (keptExponent num den)
    have hnearest := nearestEven_roundHalfEven (unscaled num den (keptExponent num den)).1 hpos
    obtain rfl := he.unique (kept_keptExponent hnum hden)
    rw [hratio] at hnearest
    obtain rfl := hr.unique hnearest
    rw [ofRatio, if_neg hnum.ne']
    rfl

theorem NearestEven.full {q : ℚ} {e : ℤ} {r : ℕ} (he : Kept q e) (hr : NearestEven (q / 2 ^ e) r) :
    e = -1074 ∨ 2 ^ 52 ≤ r := by
  refine he.above.imp_right fun habove => (nearestEven_natCast (2 ^ 52)).le hr ?_
  rw [le_div_iff₀ (by positivity)]
  exact_mod_cast habove

theorem NearestEven.bound {q : ℚ} {e : ℤ} {r : ℕ} (he : Kept q e)
    (hr : NearestEven (q / 2 ^ e) r) : r ≤ 2 ^ 53 := by
  refine hr.le (nearestEven_natCast (2 ^ 53)) ?_
  rw [div_le_iff₀ (by positivity)]
  exact_mod_cast he.below.le

def lastPlace : ℚ := 2 ^ (971 : ℤ)

theorem lastPlace_pos : 0 < lastPlace := by
  unfold lastPlace
  positivity

theorem zpow_le_lastPlace {e : ℤ} (h : e ≤ 971) : (2 : ℚ) ^ e ≤ lastPlace :=
  zpow_le_zpow_right₀ one_le_two h

theorem lastPlace_le {e : ℤ} (h : 971 < e) : lastPlace * 2 ≤ 2 ^ e := by
  rw [lastPlace, ← zpow_add_one₀ two_ne_zero]
  exact zpow_le_zpow_right₀ one_le_two h

/-- The first number that is too large for a double. -/
def tooLarge : ℚ := (2 ^ 53 - 1 / 2) * lastPlace

/-- A ratio that is not too large rounds to a finite double. -/
theorem reading_ofRatio (negative : Bool) (hden : 0 < den) (h : (num : ℚ) / den < tooLarge)
    {e : ℤ} {r : ℕ} (he : Kept ((num : ℚ) / den) e)
    (hr : NearestEven ((num : ℚ) / den / 2 ^ e) r) :
    ∃ m f, (ofRatio negative num den).reading = .finite negative m f ∧
      (m : ℚ) * 2 ^ f = r * 2 ^ e := by
  have hle : e ≤ 971 := by
    by_contra hgt
    have habove := he.above.resolve_left (by omega)
    have hpow := lastPlace_le (not_le.mp hgt)
    have hpos := lastPlace_pos
    unfold tooLarge at h
    linarith
  have hfinite : ∀ {m f}, Canonical m f → magnitude r e = magnitude m f →
      (ofRatio negative num den).reading = .finite negative m f := by
    intro m f hcanonical hsame
    rw [ofRatio_eq negative hden he hr, hsame, min_eq_left (magnitude_lt hcanonical).le]
    exact reading_ofMagnitude hcanonical negative
  have hbound := NearestEven.bound he hr
  have hfull := NearestEven.full he hr
  rcases hbound.lt_or_eq with hlt | heq
  · exact ⟨r, e, hfinite ⟨hlt, he.smallest, hle, hfull⟩ rfl, rfl⟩
  · -- The significand grew by one bit, which the next exponent takes up.
    have hsmallest := he.smallest
    have hless : e ≠ 971 := by
      rintro rfl
      have hlow := hr.low
      rw [heq, le_div_iff₀ (zpow_pos two_pos _), Nat.cast_pow, Nat.cast_ofNat] at hlow
      exact hlow.not_gt h
    refine ⟨2 ^ 52, e + 1, hfinite ⟨by decide, by omega, by omega, .inr le_rfl⟩ ?_, ?_⟩
    · rw [heq]
      unfold magnitude
      omega
    · rw [heq, zpow_add_one₀ two_ne_zero]
      push_cast
      ring

/-- Rounding does not go past a double. -/
theorem ofRatio_le (negative : Bool) (hden : 0 < den) {k : ℕ} {f : ℤ} (hk : Canonical k f)
    (h : (num : ℚ) / den ≤ k * 2 ^ f) :
    ∃ m e, (ofRatio negative num den).reading = .finite negative m e ∧
      (m : ℚ) * 2 ^ e ≤ k * 2 ^ f := by
  obtain ⟨e, r, he, hr⟩ := exists_nearest num hden
  have hkq : (k : ℚ) ≤ 2 ^ 53 - 1 := by
    have : k + 1 ≤ 2 ^ 53 := hk.bound
    have hcast : ((k + 1 : ℕ) : ℚ) ≤ (2 ^ 53 : ℕ) := by exact_mod_cast this
    push_cast at hcast
    linarith
  have hlarge : (num : ℚ) / den < tooLarge := by
    have hpow := zpow_le_lastPlace hk.largest
    have hpos := lastPlace_pos
    calc (num : ℚ) / den ≤ k * 2 ^ f := h
      _ ≤ (2 ^ 53 - 1) * lastPlace :=
        mul_le_mul hkq hpow (zpow_nonneg zero_le_two _) (by norm_num)
      _ < tooLarge := by
        unfold tooLarge
        linarith
  obtain ⟨m, e', hreading, hvalue⟩ := reading_ofRatio negative hden hlarge he hr
  refine ⟨m, e', hreading, hvalue.trans_le ?_⟩
  rcases lt_trichotomy e f with hlt | rfl | hgt
  · -- The double lies above the range of the exponent that is kept.
    have hfull : (2 : ℚ) ^ 52 ≤ k := by
      exact_mod_cast hk.full.resolve_left (by have := he.smallest; omega)
    have hbound : (r : ℚ) ≤ 2 ^ 53 := by exact_mod_cast NearestEven.bound he hr
    have hpow : (2 : ℚ) ^ (e + 1) ≤ 2 ^ f := zpow_le_zpow_right₀ one_le_two (by omega)
    rw [zpow_add_one₀ two_ne_zero] at hpow
    have hpos : (0 : ℚ) < 2 ^ e := by positivity
    calc (r : ℚ) * 2 ^ e ≤ 2 ^ 53 * 2 ^ e := by gcongr
      _ = 2 ^ 52 * (2 ^ e * 2) := by ring
      _ ≤ k * 2 ^ f := by gcongr
  · have hle : r ≤ k := by
      refine hr.le (nearestEven_natCast k) ?_
      rw [div_le_iff₀ (by positivity)]
      exact h
    gcongr
  · exfalso
    have habove := he.above.resolve_left (by have := hk.smallest; omega)
    have hpow : (2 : ℚ) ^ (f + 1) ≤ 2 ^ e := zpow_le_zpow_right₀ one_le_two (by omega)
    rw [zpow_add_one₀ two_ne_zero] at hpow
    have hpos : (0 : ℚ) < 2 ^ f := by positivity
    nlinarith

/-! ## The numbers that round to a double -/

/-- How far below a double the numbers round to it, in units of its last place.  Below a power of
two the doubles lie twice as close. -/
def gap (m : ℕ) (e : ℤ) : ℚ :=
  if m = 2 ^ 52 ∧ e ≠ -1074 then 1 / 4 else 1 / 2

/-- The numbers that round to `m * 2 ^ e`.  The ends belong to them when `m` is even. -/
structure Near (m : ℕ) (e : ℤ) (q : ℚ) : Prop where
  low : (m - gap m e) * 2 ^ e ≤ q
  high : q ≤ (m + 1 / 2) * 2 ^ e
  odd : m % 2 = 1 → (m - gap m e) * 2 ^ e < q ∧ q < (m + 1 / 2) * 2 ^ e

theorem gap_le (m : ℕ) (e : ℤ) : gap m e ≤ 1 / 2 := by
  unfold gap
  split <;> norm_num

/-- A number near a double is kept with the significand of the double, or lies just below a power
of two and is kept with one bit more, which rounding fills up. -/
theorem Near.nearest {m : ℕ} {e : ℤ} {q : ℚ} (hm : Canonical m e) (h : Near m e q) :
    ∃ f r, Kept q f ∧ NearestEven (q / 2 ^ f) r ∧ magnitude r f = magnitude m e := by
  have hpow : (0 : ℚ) < 2 ^ e := zpow_pos two_pos e
  have hgap := gap_le m e
  have hlow := h.low
  have hhigh := h.high
  by_cases hkept : e = -1074 ∨ 2 ^ 52 * 2 ^ e ≤ q
  · have hmq : (m : ℚ) ≤ 2 ^ 53 - 1 := by
      have hcast : ((m + 1 : ℕ) : ℚ) ≤ (2 ^ 53 : ℕ) := by exact_mod_cast hm.bound
      push_cast at hcast
      linarith
    refine ⟨e, m, ⟨hm.smallest, by nlinarith, hkept⟩, ⟨?_, ?_, fun hodd => ⟨?_, ?_⟩⟩, rfl⟩
    · rw [le_div_iff₀ hpow]
      nlinarith
    · rw [div_le_iff₀ hpow]
      exact hhigh
    · rw [lt_div_iff₀ hpow]
      have := (h.odd hodd).1
      nlinarith
    · rw [div_lt_iff₀ hpow]
      exact (h.odd hodd).2
  · obtain ⟨hsmallest, hless⟩ := not_or.mp hkept
    rw [not_le] at hless
    have hfull := hm.full.resolve_left hsmallest
    obtain rfl : m = 2 ^ 52 := by
      by_contra hne
      have hmq : (2 : ℚ) ^ 52 + 1 ≤ m := by
        have : 2 ^ 52 + 1 ≤ m := by omega
        exact_mod_cast this
      nlinarith
    have hhalf : (2 : ℚ) ^ (e - 1) = 2 ^ e / 2 := zpow_sub_one₀ two_ne_zero e
    have hhalfPos : (0 : ℚ) < 2 ^ (e - 1) := zpow_pos two_pos _
    have hquarter : gap (2 ^ 52) e = 1 / 4 := if_pos ⟨rfl, hsmallest⟩
    rw [hquarter] at hlow
    push_cast at hlow
    have hsmallest' := hm.smallest
    refine ⟨e - 1, 2 ^ 53, ⟨by omega, ?_, .inr ?_⟩, ⟨?_, ?_, fun hodd => ?_⟩, ?_⟩
    · rw [hhalf]
      linarith
    · rw [hhalf]
      linarith
    · rw [le_div_iff₀ hhalfPos, hhalf]
      push_cast
      linarith
    · rw [div_le_iff₀ hhalfPos, hhalf]
      push_cast
      linarith
    · exact absurd hodd (by decide)
    · unfold magnitude
      omega

theorem ofRatio_near (negative : Bool) (hden : 0 < den) {m : ℕ} {e : ℤ} (hm : Canonical m e)
    (h : Near m e ((num : ℚ) / den)) :
    ofRatio negative num den = ofMagnitude negative (magnitude m e) := by
  obtain ⟨f, r, hf, hr, hsame⟩ := h.nearest hm
  rw [ofRatio_eq negative hden hf hr, hsame, min_eq_left (magnitude_lt hm).le]

end Rounding

end Double
end TableSearch
