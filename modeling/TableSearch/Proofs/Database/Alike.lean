/-
Cells compared in two columns.

What a comparison makes of a cell depends on the traits of its column.  The embedded engine looks
row numbers up where it compares the cells of other columns, so a whole number that is a reference
and the row number that it refers to are compared in two ways.  `alike_sqlite` says that the ways
agree: only affinities and collations tell columns apart, but for the smallest whole number.
-/
import TableSearch.Database.Meaning
import TableSearch.Proofs.Double.Rounding

namespace TableSearch

/-- A backend compares a cell alike in columns with these traits. -/
def Meaning.Alike (m : Meaning) (x y : Traits) (cell : Cell) : Prop :=
  ∀ op v, m.compare op ⟨cell, x⟩ v = .yes ↔ m.compare op ⟨cell, y⟩ v = .yes

namespace Double

variable {n : Int} {x : Double}

/-- Up to infinity, magnitudes stand for numbers. -/
theorem isNaN_ofMagnitude {k : ℕ} (h : k ≤ infiniteMagnitude) (negative : Bool) :
    (ofMagnitude negative k).isNaN = false := by
  have hlt : k < 2 ^ 63 := Nat.lt_of_le_of_lt h (by decide)
  have hreading : (ofMagnitude negative k).reading ≠ .nan := by
    unfold reading
    rw [exponentField_ofMagnitude hlt, fraction_ofMagnitude hlt]
    split
    · have hzero : k % 2 ^ 52 = 0 := by
        unfold infiniteMagnitude at h
        omega
      rw [if_pos hzero]
      simp
    · split <;> simp
  unfold isNaN
  split
  · next hnan => exact absurd hnan hreading
  · rfl

theorem isNaN_ofRatio (negative : Bool) (num den : ℕ) :
    (ofRatio negative num den).isNaN = false := by
  unfold ofRatio
  split
  · exact isNaN_ofMagnitude (Nat.zero_le _) negative
  · exact isNaN_ofMagnitude (Nat.min_le_right _ _) negative

/-- A double that is as large as a whole number is that number. -/
theorem integral_of_orderInt (hnan : x.isNaN = false) (h : orderInt n x = .eq) :
    x.integral? = some n := by
  unfold orderInt at h
  unfold isNaN at hnan
  cases hreading : x.reading with
  | nan =>
    rw [hreading] at hnan
    cases hnan
  | infinite negative =>
    rw [hreading] at h
    cases negative <;> cases h
  | finite negative mantissa exponent =>
    rw [hreading] at h
    obtain ⟨k, hk⟩ : ∃ k, x.units? = some k := by
      unfold units?
      rw [hreading]
      exact ⟨_, rfl⟩
    have hunits : n * 2 ^ 1074 = k := by
      rw [hk] at h
      exact compare_eq_iff_eq.mp h
    unfold integral?
    rw [hk, ← hunits]
    have hpos : (2 ^ 1074 : Int) ≠ 0 := Int.pow_ne_zero (by decide)
    show (if n * 2 ^ 1074 % 2 ^ 1074 = 0 then some (n * 2 ^ 1074 / 2 ^ 1074) else none) = some n
    rw [if_pos (Int.mul_emod_left n (2 ^ 1074)), Int.mul_ediv_cancel n hpos]

end Double

namespace Cell

variable {n : Int64} {y : Cell} {v : Value} {c : Collation}

theorem isNaN_scaled (negative : Bool) (k : ℕ) (exponent : Int) :
    (scaled negative k exponent).isNaN = false := by
  unfold scaled
  split
  · exact Double.isNaN_ofRatio negative 0 1
  · split
    · exact Double.isNaN_ofMagnitude (Nat.le_refl _) negative
    · split <;> exact Double.isNaN_ofRatio negative _ _

/-- A text reads as a number that is one. -/
theorem isNaN_ofNumeral {t : Numeral} {x : Double} (h : ofNumeral t = .real x) :
    x.isNaN = false := by
  have hcases : ∀ (p : Prop) [Decidable p] (n : Int64) (z : Double),
      (if p then Cell.integer n else .real z) = .real x → z = x := by
    intro p _ n z hif
    split at hif
    · cases hif
    · exact Cell.real.inj hif
  rw [← hcases _ _ _ h]
  exact isNaN_scaled _ _ _

/-- What is bound is a number that is one, if it is a number or reads as one. -/
theorem isNaN_numbered {x : Double} (hv : ofValue? v = some y) (h : y.numbered = .real x) :
    x.isNaN = false := by
  cases v with
  | float z =>
    cases hv
    by_cases hz : z.isNaN = true
    · rw [if_pos hz] at h
      cases h
    · rw [if_neg hz] at h
      cases h
      exact Bool.eq_false_iff.mpr hz
  | text s =>
    cases hv
    unfold ofText numbered at h
    simp only at h
    split at h
    · exact isNaN_ofNumeral h
    · cases h
  | list items => cases hv
  | _ =>
    cases hv
    cases h

/-- What equals a whole number can be looked up, but for the smallest one. -/
theorem isLookedUp_of_order (hv : ofValue? v = some y) (hn : -(2 ^ 63) < n.toInt)
    (h : order c (.integer n) y.numbered = .eq) : Operand.isLookedUp y = true := by
  unfold Operand.isLookedUp
  cases hnumbered : y.numbered with
  | integer k => simp only [stored, hnumbered]
  | real x =>
    rw [hnumbered] at h
    have hwhole := Double.integral_of_orderInt (isNaN_numbered hv hnumbered) h
    have hrange : -(2 ^ 63) < n.toInt ∧ n.toInt < 2 ^ 63 := ⟨hn, n.toInt_lt⟩
    have hnarrowed : narrowed x = .integer (Int64.ofInt n.toInt) := by
      unfold narrowed
      rw [hwhole]
      exact if_pos hrange
    simp only [stored, hnumbered, hnarrowed]
  | null =>
    rw [hnumbered] at h
    cases h
  | text bytes =>
    rw [hnumbered] at h
    cases h
  | blob bytes =>
    rw [hnumbered] at h
    cases h

end Cell

namespace Meaning

variable {x y : Traits} {cell : Cell}

theorem compare_sqlite_some {op : Comparison} {x : Operand} {v : Value} {d : Cell}
    (h : Cell.ofValue? v = some d) :
    sqlite.compare op x v = compareCells op x.traits.affinity x d := by
  simp only [sqlite, h]

/-- A missing cell compares to nothing, in whatever column. -/
theorem alike_null : sqlite.Alike x y .null := by
  intro op v
  have hunknown : ∀ z : Traits, sqlite.compare op ⟨.null, z⟩ v ≠ .yes := by
    intro z
    cases hd : Cell.ofValue? v with
    | none => simp [sqlite, hd]
    | some d => simp [compare_sqlite_some hd, compareCells, Cell.isNull]
  exact iff_of_false (hunknown x) (hunknown y)

/-- A cell that is a whole number equals the same values in a column of row numbers. -/
theorem equals_integer {a : Affinity} {n : Int64} {v : Value} {d : Cell}
    (ha : a.isNumeric = true) (hn : -(2 ^ 63) < n.toInt) (hd : Cell.ofValue? v = some d)
    (x : Traits) :
    Operand.equals ⟨.integer n, x⟩ a d = (Operand.orderTo ⟨.integer n, x⟩ a d).isEq := by
  have horder : Operand.orderTo ⟨.integer n, x⟩ a d =
      Cell.order x.collation (.integer n) d.numbered := by
    cases a <;> first | rfl | cases ha
  unfold Operand.equals
  cases heq : (Operand.orderTo ⟨.integer n, x⟩ a d).isEq with
  | false => rw [Bool.and_false]
  | true =>
    rw [horder, Ordering.isEq_iff_eq_eq] at heq
    rw [Cell.isLookedUp_of_order hd hn heq, Bool.or_true, Bool.and_true]

/-- Columns of one affinity and one collation compare their cells alike.  Where one of them holds
row numbers and the other does not, this is so for whole numbers but for the smallest. -/
theorem alike_sqlite (haffinity : x.affinity = y.affinity) (hcollation : x.collation = y.collation)
    (hnumber : x.isRowNumber = y.isRowNumber ∨
      x.affinity.isNumeric = true ∧ ∃ n : Int64, cell = .integer n ∧ -(2 ^ 63) < n.toInt) :
    sqlite.Alike x y cell := by
  intro op v
  cases hd : Cell.ofValue? v with
  | none => simp [sqlite, hd]
  | some d =>
    have horder : Operand.orderTo ⟨cell, x⟩ x.affinity d =
        Operand.orderTo ⟨cell, y⟩ x.affinity d := by
      unfold Operand.orderTo
      rw [hcollation]
    have hequals : Operand.equals ⟨cell, x⟩ x.affinity d =
        Operand.equals ⟨cell, y⟩ x.affinity d := by
      rcases hnumber with hsame | ⟨hnumeric, n, rfl, hn⟩
      · unfold Operand.equals
        rw [horder, hsame]
      · rw [equals_integer hnumeric hn hd, equals_integer hnumeric hn hd, horder]
    rw [compare_sqlite_some hd, compare_sqlite_some hd, ← haffinity, compareCells, compareCells,
      hequals, horder]

end Meaning
end TableSearch
