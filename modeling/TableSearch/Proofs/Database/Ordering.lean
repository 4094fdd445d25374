/-
The order of stored values.

Every stored value has a key: the place of its storage class, its size as a number, and its bytes as
the collation of its column sees them.  Values are ordered as their keys are, so the order of what
a column holds is total up to ties: `Meaning.ranks_sqlite`.  Only what is no number has no place in
it.
-/
import Mathlib.Data.List.Forall2
import TableSearch.Database.Meaning

namespace TableSearch

/-! ## Collations -/

namespace Collation

/-- What is compared of bytes whose case does not count.  After a byte that is zero only the number
of bytes counts. -/
def nocaseKey : List UInt8 → List Nat
  | [] => []
  | a :: rest => if a = 0 then [0, rest.length] else lowerCode a.toNat :: nocaseKey rest

def sortKey (c : Collation) (bytes : List UInt8) : List Nat :=
  match c with
  | .binary => bytes.map UInt8.toNat
  | .nocase => nocaseKey bytes
  | .rtrim => (withoutPadding bytes).map UInt8.toNat

theorem orderBytes_eq (a b : List UInt8) :
    orderBytes a b = compare (a.map UInt8.toNat) (b.map UInt8.toNat) := by
  induction a generalizing b with
  | nil => cases b <;> rfl
  | cons x xs ih =>
    cases b with
    | nil => rfl
    | cons y ys => rw [orderBytes, List.map_cons, List.map_cons, List.compare_cons_cons, ih]

theorem lowerCode_pos {n : Nat} (h : 0 < n) : 0 < lowerCode n := by
  unfold lowerCode
  split <;> omega

theorem orderNocase_eq (a b : List UInt8) :
    orderNocase a b = compare (nocaseKey a) (nocaseKey b) := by
  induction a generalizing b with
  | nil =>
    cases b with
    | nil => rfl
    | cons y ys =>
      rw [orderNocase, nocaseKey, nocaseKey]
      split <;> rfl
  | cons x xs ih =>
    cases b with
    | nil =>
      rw [orderNocase, nocaseKey, nocaseKey]
      split <;> rfl
    | cons y ys =>
      have hpos : ∀ z : UInt8, z ≠ 0 → 0 < lowerCode z.toNat := fun z hz =>
        lowerCode_pos (Nat.pos_of_ne_zero fun h => hz (UInt8.toNat_inj.mp h))
      rw [orderNocase, nocaseKey, nocaseKey]
      by_cases hx : x = 0
      · by_cases hy : y = 0
        · rw [if_pos ⟨hx, hy⟩, if_pos hx, if_pos hy]
          simp [List.compare_cons_cons]
        · have hlt : compare 0 (lowerCode y.toNat) = .lt := Nat.compare_eq_lt.mpr (hpos y hy)
          rw [if_neg (fun h => hy h.2), if_pos hx, if_neg hy, hx, List.compare_cons_cons, hlt]
          show (compare 0 (lowerCode y.toNat)).then _ = _
          rw [hlt]
          rfl
      · by_cases hy : y = 0
        · have hgt : compare (lowerCode x.toNat) 0 = .gt := Nat.compare_eq_gt.mpr (hpos x hx)
          rw [if_neg (fun h => hx h.1), if_neg hx, if_pos hy, hy, List.compare_cons_cons, hgt]
          show (compare (lowerCode x.toNat) 0).then _ = _
          rw [hgt]
          rfl
        · rw [if_neg (fun h => hx h.1), if_neg hx, if_neg hy, List.compare_cons_cons, ih]

theorem order_eq (c : Collation) (a b : List UInt8) :
    c.order a b = compare (c.sortKey a) (c.sortKey b) := by
  cases c with
  | binary => exact orderBytes_eq a b
  | nocase => exact orderNocase_eq a b
  | rtrim => exact orderBytes_eq _ _

end Collation

/-! ## Numbers -/

namespace Double

/-- Whether a double lies beyond all finite ones, and on which side. -/
def side (d : Double) : Int :=
  match d.reading with
  | .infinite negative => if negative then -1 else 1
  | _ => 0

def units (d : Double) : Int :=
  d.units?.getD 0

theorem order_eq {a b : Double} (ha : a.isNaN = false) (hb : b.isNaN = false) :
    order a b = (compare a.side b.side).then (compare a.units b.units) := by
  unfold isNaN at ha hb
  unfold order side units units?
  cases hra : a.reading with
  | nan => simp [hra] at ha
  | infinite na =>
    cases hrb : b.reading with
    | nan => simp [hrb] at hb
    | infinite nb => cases na <;> cases nb <;> rfl
    | finite nb mb eb => cases na <;> rfl
  | finite na ma ea =>
    cases hrb : b.reading with
    | nan => simp [hrb] at hb
    | infinite nb => cases nb <;> rfl
    | finite nb mb eb => rfl

theorem orderInt_eq (n : Int) {d : Double} (h : d.isNaN = false) :
    orderInt n d = (compare 0 d.side).then (compare (n * 2 ^ 1074) d.units) := by
  unfold isNaN at h
  unfold orderInt side units units?
  cases hr : d.reading with
  | nan => simp [hr] at h
  | infinite negative => cases negative <;> rfl
  | finite negative m e => rfl

end Double

/-! ## Stored values -/

namespace Cell

def isNaN : Cell → Bool
  | .real x => x.isNaN
  | _ => false

def side : Cell → Int
  | .real x => x.side
  | _ => 0

/-- A number as a count of the smallest positive double. -/
def units : Cell → Int
  | .integer n => n.toInt * 2 ^ 1074
  | .real x => x.units
  | _ => 0

def sortKey (c : Collation) : Cell → List Nat
  | .text bytes => c.sortKey bytes
  | .blob bytes => bytes.map UInt8.toNat
  | _ => []

def keyOrder (c : Collation) : Cell → Cell → Ordering :=
  compareLex (compareOn rank) (compareLex (compareOn side)
    (compareLex (compareOn units) (compareOn (sortKey c))))

theorem compare_units (n k : Int) : compare (n * 2 ^ 1074) (k * 2 ^ 1074) = compare n k := by
  have hpos : (0 : Int) < 2 ^ 1074 := Int.pow_pos (by decide)
  rcases Int.lt_trichotomy n k with h | rfl | h
  · rw [Int.compare_eq_lt.mpr h, Int.compare_eq_lt.mpr (Int.mul_lt_mul_of_pos_right h hpos)]
  · rw [Int.compare_eq_eq.mpr rfl, Int.compare_eq_eq.mpr rfl]
  · rw [Int.compare_eq_gt.mpr h, Int.compare_eq_gt.mpr (Int.mul_lt_mul_of_pos_right h hpos)]

theorem keyOrder_numbers {c : Collation} {a b : Cell} (ha : a.rank = 1) (hb : b.rank = 1) :
    keyOrder c a b = (compare a.side b.side).then (compare a.units b.units) := by
  have hbytes : ∀ x : Cell, x.rank = 1 → x.sortKey c = [] := by
    intro x hx
    cases x with
    | text bytes => cases hx
    | blob bytes => cases hx
    | _ => rfl
  show (compare a.rank b.rank).then ((compare a.side b.side).then
    ((compare a.units b.units).then (compare (a.sortKey c) (b.sortKey c)))) = _
  rw [ha, hb, hbytes a ha, hbytes b hb]
  show (compare a.side b.side).then ((compare a.units b.units).then .eq) = _
  rw [Ordering.then_eq]

theorem keyOrder_bytes {c : Collation} {a b : Cell} (hrank : a.rank = b.rank) (ha : 2 ≤ a.rank) :
    keyOrder c a b = compare (a.sortKey c) (b.sortKey c) := by
  have hnumber : ∀ x : Cell, 2 ≤ x.rank → x.side = 0 ∧ x.units = 0 := by
    intro x hx
    cases x with
    | integer n => exact absurd (show 2 ≤ 1 from hx) (by decide)
    | real y => exact absurd (show 2 ≤ 1 from hx) (by decide)
    | _ => exact ⟨rfl, rfl⟩
  show (compare a.rank b.rank).then ((compare a.side b.side).then
    ((compare a.units b.units).then (compare (a.sortKey c) (b.sortKey c)))) = _
  rw [(hnumber a ha).1, (hnumber a ha).2, (hnumber b (hrank ▸ ha)).1, (hnumber b (hrank ▸ ha)).2,
    hrank, Nat.compare_eq_eq.mpr rfl]
  rfl

/-- Values that have a place are ordered as their keys are. -/
theorem order_eq (c : Collation) {a b : Cell} (ha : a.isNaN = false) (hb : b.isNaN = false) :
    order c a b = keyOrder c a b := by
  cases a with
  | null => cases b <;> rfl
  | integer n =>
    cases b with
    | integer k =>
      rw [keyOrder_numbers rfl rfl]
      exact (compare_units n.toInt k.toInt).symm
    | real y =>
      rw [keyOrder_numbers rfl rfl]
      exact Double.orderInt_eq n.toInt hb
    | _ => rfl
  | real x =>
    cases b with
    | integer k =>
      rw [keyOrder_numbers rfl rfl, order, Double.orderInt_eq k.toInt ha, Ordering.swap_then,
        Int.compare_swap, Int.compare_swap]
      rfl
    | real y =>
      rw [keyOrder_numbers rfl rfl]
      exact Double.order_eq ha hb
    | _ => rfl
  | text s =>
    cases b with
    | text t =>
      have hrank : (text s).rank = (text t).rank := rfl
      rw [keyOrder_bytes hrank (Nat.le_refl 2)]
      exact c.order_eq s t
    | _ => rfl
  | blob s =>
    cases b with
    | blob t =>
      have hrank : (blob s).rank = (blob t).rank := rfl
      rw [keyOrder_bytes hrank (Nat.le_succ 2)]
      exact Collation.orderBytes_eq s t
    | _ => rfl

end Cell

/-! ## Ranks -/

/-- Things that are ordered as what they are mapped to. -/
theorem transCmp_comap {α β : Type} {cmp : β → β → Ordering} (h : Std.TransCmp cmp) (f : α → β) :
    Std.TransCmp fun x y => cmp (f x) (f y) where
  eq_swap := h.eq_swap
  isLE_trans := h.isLE_trans

namespace Meaning

/-- A backend that takes missing values by themselves for the smallest ones, or the largest. -/
def withNulls (m : Meaning) (smallest : Bool) : Meaning :=
  { m with nullsSmallest := smallest }

/-- The order of some stored values is total, up to ties. -/
def Ranks (m : Meaning) (values : Operand → Prop) : Prop :=
  Std.TransCmp fun x y : { x // values x } => m.order x y

theorem Ranks.mono {m : Meaning} {values fewer : Operand → Prop} (h : m.Ranks values)
    (hfewer : ∀ x, fewer x → values x) : m.Ranks fewer :=
  transCmp_comap h fun x : { x // fewer x } => ⟨x.1, hfewer x.1 x.2⟩

/-- The embedded engine ranks whatever one column holds. -/
theorem ranks_sqlite (traits : Traits) :
    sqlite.Ranks fun x => x.traits = traits ∧ x.cell.isNaN = false := by
  have hkey : (fun x y : { x : Operand // x.traits = traits ∧ x.cell.isNaN = false } =>
      sqlite.order x y) = fun x y => Cell.keyOrder traits.collation x.1.cell y.1.cell := by
    funext x y
    show Cell.order x.1.traits.collation _ _ = _
    rw [x.2.1, Cell.order_eq _ x.2.2 y.2.2]
  have htrans : Std.TransCmp (Cell.keyOrder traits.collation) := by
    unfold Cell.keyOrder
    infer_instance
  unfold Ranks
  rw [hkey]
  exact transCmp_comap htrans fun x : { x : Operand // _ } => x.1.cell

end Meaning
end TableSearch
