/-
Pages tile a result.

Page `n` of some rows begins after `n - 1` full pages, so the pages one after the other are the
rows, and there is a row on page `n` exactly when `n` is at most the number of pages:
`lt_totalPages`.  All numbers on the way are small.  `Word` is arithmetic of 64 bits that notices
when a result does not fit, and `PageRequest.Exact` says that offsets, totals and numbers of pages
are computed in it without that ever happening.  `pages_tile` puts both together.
-/
import TableSearch.Proofs.Search.Agreement

namespace TableSearch

/-! ## Words -/

/-! Operations of 64 bits that have no result where the exact one does not fit. -/
namespace Word

def ofNat? (n : Nat) : Option UInt64 :=
  if n < 2 ^ 64 then some (UInt64.ofNat n) else none

def add? (a b : UInt64) : Option UInt64 :=
  ofNat? (a.toNat + b.toNat)

def sub? (a b : UInt64) : Option UInt64 :=
  if b ≤ a then ofNat? (a.toNat - b.toNat) else none

def mul? (a b : UInt64) : Option UInt64 :=
  ofNat? (a.toNat * b.toNat)

def divCeil? (a b : UInt64) : Option UInt64 :=
  if b = 0 then none
  else if a % b = 0 then some (a / b)
  else add? (a / b) 1

theorem ofNat?_of_lt {n : Nat} (h : n < 2 ^ 64) : ofNat? n = some (UInt64.ofNat n) :=
  if_pos h

theorem toNat_ofNat {n : Nat} (h : n < 2 ^ 64) : (UInt64.ofNat n).toNat = n :=
  UInt64.toNat_ofNat_of_lt h

/-- A quotient fits also when it is rounded up. -/
theorem divCeil?_eq (a : UInt64) {b : UInt64} (hb : 1 ≤ b.toNat) :
    divCeil? a b = some (UInt64.ofNat ((a.toNat + b.toNat - 1) / b.toNat)) := by
  have ha : a.toNat < 2 ^ 64 := a.toNat_lt
  have hpos : b ≠ 0 := by
    rintro rfl
    exact absurd hb (by decide)
  have hsplit : b.toNat * (a.toNat / b.toNat) + a.toNat % b.toNat = a.toNat :=
    Nat.div_add_mod _ _
  have hrest : a.toNat % b.toNat < b.toNat := Nat.mod_lt _ hb
  rw [divCeil?, if_neg hpos]
  split
  · next hzero =>
    have hmod : a.toNat % b.toNat = 0 := by
      rw [← UInt64.toNat_mod, hzero]
      rfl
    have hceil : (a.toNat + b.toNat - 1) / b.toNat = a.toNat / b.toNat := by
      refine Nat.div_eq_of_lt_le ?_ ?_
      · rw [Nat.mul_comm]
        omega
      · rw [Nat.add_mul, Nat.mul_comm (a.toNat / b.toNat)]
        omega
    rw [hceil, ← UInt64.toNat_div, UInt64.ofNat_toNat]
  · next hnonzero =>
    have hmod : a.toNat % b.toNat ≠ 0 := by
      intro h
      exact hnonzero (UInt64.toNat_inj.mp (UInt64.toNat_mod a b ▸ h))
    have hceil : (a.toNat + b.toNat - 1) / b.toNat = a.toNat / b.toNat + 1 := by
      refine Nat.div_eq_of_lt_le ?_ ?_
      · rw [Nat.add_mul, Nat.mul_comm (a.toNat / b.toNat)]
        omega
      · rw [Nat.add_mul, Nat.add_mul, Nat.mul_comm (a.toNat / b.toNat)]
        omega
    -- What is left over is smaller than a divisor that is not one.
    have htwo : 2 ≤ b.toNat := by omega
    have hfits : a.toNat / b.toNat + 1 < 2 ^ 64 := by
      have : a.toNat / b.toNat ≤ a.toNat / 2 := Nat.div_le_div_left htwo (by decide)
      omega
    rw [add?, UInt64.toNat_div, hceil]
    exact ofNat?_of_lt hfits

end Word

namespace PageRequest

variable {α : Type}

def rowsOf (r : PageRequest) (rows : List α) : List α :=
  (rows.drop r.offset).take r.limit.toNat

def pageOf (r : PageRequest) (rows : List α) : Page α :=
  Page.make (r.rowsOf rows) r rows.length

def wordOffset? (r : PageRequest) : Option UInt64 := do
  let before ← Word.sub? r.page.toUInt64 1
  Word.mul? before r.limit.toUInt64

/-- What a fetched page tells of the number of all rows, in words. -/
def wordTotal? (r : PageRequest) (fetched : UInt64) : Option (Option UInt64) := do
  let offset ← r.wordOffset?
  if offset = 0 then
    return if fetched < r.limit.toUInt64 then some fetched else none
  else if fetched ≠ 0 ∧ fetched < r.limit.toUInt64 then some <$> Word.add? offset fetched
  else return none

/-! ## Exact numbers -/

/-- Everything that is computed for a request fits into words, and the offset is sent to the
database as it is. -/
structure Exact (r : PageRequest) : Prop where
  offset : r.wordOffset? = some (UInt64.ofNat r.offset)
  offset_lt : r.offset < 2 ^ 63
  total : ∀ fetched : UInt64,
    r.wordTotal? fetched = some ((r.knownTotal? fetched.toNat).map UInt64.ofNat)
  pages : ∀ (content : List Record) (total : UInt64), Word.divCeil? total r.limit.toUInt64 =
    some (UInt64.ofNat (Page.make content r total.toNat).totalPages)
  sent : ∀ table p terms (rows : List (List Cell)),
    let s := Sql.Statement.select table p terms (some (Repository.window r))
    (∃ before, s.params =
      before ++ [.int (Int64.ofNat r.limit.toNat), .int (Int64.ofNat r.offset)]) ∧
    Sql.WindowParams.cut s.params rows s.window = r.rowsOf rows

theorem wordOffset?_eq (r : PageRequest) : r.wordOffset? = some (UInt64.ofNat r.offset) := by
  have hpage : r.page.toUInt64.toNat = r.page.toNat := UInt32.toNat_toUInt64 r.page
  have hlimit : r.limit.toUInt64.toNat = r.limit.toNat := UInt32.toNat_toUInt64 r.limit
  have hpos := r.page_pos
  have hlt := r.page.toNat_lt
  have hle : (1 : UInt64) ≤ r.page.toUInt64 := by
    rw [UInt64.le_iff_toNat_le, hpage]
    exact hpos
  have hbefore : Word.sub? r.page.toUInt64 1 = some (UInt64.ofNat (r.page.toNat - 1)) := by
    rw [Word.sub?, if_pos hle, hpage]
    exact Word.ofNat?_of_lt (by simp; omega)
  rw [wordOffset?, hbefore]
  show Word.mul? _ _ = _
  rw [Word.mul?, Word.toNat_ofNat (by omega), hlimit]
  exact Word.ofNat?_of_lt (Nat.lt_trans r.offset_lt (by decide))

theorem wordTotal?_eq (r : PageRequest) (fetched : UInt64) :
    r.wordTotal? fetched = some ((r.knownTotal? fetched.toNat).map UInt64.ofNat) := by
  have hoffset := r.offset_lt
  have hlimit : r.limit.toUInt64.toNat = r.limit.toNat := UInt32.toNat_toUInt64 r.limit
  have hfew := r.limit_le
  have hword : (UInt64.ofNat r.offset).toNat = r.offset := Word.toNat_ofNat (by omega)
  have hzero : UInt64.ofNat r.offset = 0 ↔ r.offset = 0 := by
    rw [← UInt64.toNat_inj, hword]
    rfl
  have hnone : fetched ≠ 0 ↔ fetched.toNat ≠ 0 := by
    rw [ne_eq, ← UInt64.toNat_inj]
    rfl
  have hshort : fetched < r.limit.toUInt64 ↔ fetched.toNat < r.limit.toNat := by
    rw [UInt64.lt_iff_toNat_lt, hlimit]
  rw [wordTotal?, wordOffset?_eq, knownTotal?]
  simp only [Option.bind_eq_bind, Option.bind_some, hzero, hnone, hshort]
  split
  · split <;> simp
  · split
    · next hpart =>
      rw [Word.add?, hword, Word.ofNat?_of_lt]
      · rfl
      · unfold largestLimit at hfew
        omega
    · rfl

theorem exact (r : PageRequest) : r.Exact where
  offset := r.wordOffset?_eq
  offset_lt := Nat.lt_trans r.offset_lt (by decide)
  total := r.wordTotal?_eq
  pages _ total := by
    have hlimit : r.limit.toUInt64.toNat = r.limit.toNat := UInt32.toNat_toUInt64 r.limit
    rw [Word.divCeil?_eq total (hlimit ▸ r.limit_pos), hlimit]
    rfl
  sent table p terms rows := by
    refine ⟨⟨p.values, ?_⟩, ?_⟩
    · rw [Sql.Statement.select_params, Sql.Draft.windowValues, Repository.offset_window]
      rfl
    · rw [Sql.Statement.cut_select, Repository.offset_window]
      rfl

/-! ## Windows -/

/-- Windows of `n` items, one after the other, are the items at the front. -/
theorem flatMap_windows (rows : List α) (n count : Nat) :
    ((List.range count).flatMap fun i => (rows.drop (i * n)).take n) = rows.take (count * n) := by
  induction count with
  | zero => simp
  | succ count ih =>
    rw [List.range_succ, List.flatMap_append, ih, Nat.succ_mul, List.take_add]
    simp

/-- There are rows after some pages when these are not all. -/
theorem lt_totalPages {content : List α} {r : PageRequest} {total n : Nat} :
    n < (Page.make content r total).totalPages ↔ n * r.limit.toNat < total := by
  have hpos := r.limit_pos
  show n < (total + r.limit.toNat - 1) / r.limit.toNat ↔ _
  rw [Nat.lt_iff_add_one_le, Nat.le_div_iff_mul_le hpos, Nat.succ_mul]
  omega

/-- What a request shows of some rows, and what its page says of the rows around. -/
structure Shows (r : PageRequest) (rows : List α) : Prop where
  full : r.page.toNat < (r.pageOf rows).totalPages → (r.rowsOf rows).length = r.limit.toNat
  last : r.page.toNat = (r.pageOf rows).totalPages → r.rowsOf rows ≠ []
  beyond : (r.pageOf rows).totalPages < r.page.toNat → r.rowsOf rows = []
  next : (r.pageOf rows).hasNext = true ↔ rows.drop (r.offset + r.limit.toNat) ≠ []
  previous : (r.pageOf rows).hasPrevious = true ↔ 1 < r.page.toNat

theorem shows (r : PageRequest) (rows : List α) : r.Shows rows := by
  have hpage := r.page_pos
  have hlimit := r.limit_pos
  have hend : r.offset + r.limit.toNat = r.page.toNat * r.limit.toNat := by
    rw [offset, ← Nat.succ_mul, Nat.succ_eq_add_one, Nat.sub_add_cancel hpage]
  have hafter : r.page.toNat < (r.pageOf rows).totalPages ↔
      r.offset + r.limit.toNat < rows.length := by
    rw [hend]
    exact lt_totalPages
  have hreached : r.page.toNat - 1 < (r.pageOf rows).totalPages ↔ r.offset < rows.length :=
    lt_totalPages
  have hlength : (r.rowsOf rows).length = min r.limit.toNat (rows.length - r.offset) := by
    rw [rowsOf, List.length_take, List.length_drop]
  refine ⟨fun h => ?_, fun h => ?_, fun h => ?_, ?_, ?_⟩
  · have := hafter.mp h
    omega
  · have := hreached.mp (by omega)
    rw [← List.length_pos_iff]
    omega
  · have : ¬ r.offset < rows.length := fun hlt => by
      have := hreached.mpr hlt
      omega
    rw [← List.length_eq_zero_iff]
    omega
  · rw [ne_eq, List.drop_eq_nil_iff, Nat.not_le, ← hafter]
    exact decide_eq_true_iff
  · exact decide_eq_true_iff

/-! ## Tiling -/

theorem make_eq_ok {page limit : UInt32} {r : PageRequest} (h : make page limit = .ok r) :
    r.page = page ∧ r.limit = limit := by
  unfold make at h
  split at h
  · split at h
    · cases h
      exact ⟨rfl, rfl⟩
    · cases h
  · cases h

theorem exists_make {page limit : UInt32} {first : PageRequest} (h : make 1 limit = .ok first)
    (hpage : 1 ≤ page.toNat) : ∃ r, make page limit = .ok r := by
  have hlimit := (make_eq_ok h).2
  have hpos := first.limit_pos
  have hle := first.limit_le
  rw [hlimit] at hpos hle
  rw [make, dif_pos hpage, dif_pos ⟨hpos, hle⟩]
  exact ⟨_, rfl⟩

/-- Requests for the pages from one on, one after the other, show the rows at the front. -/
theorem flatMap_rowsOf {rows : List α} {limit : UInt32} {count : Nat} {requests : List PageRequest}
    (hcount : count < 2 ^ 32)
    (h : (List.range' 1 count).mapM (fun n => make (UInt32.ofNat n) limit) = .ok requests) :
    requests.flatMap (fun r => r.rowsOf rows) = rows.take (count * limit.toNat) := by
  have hnumber : ∀ n ∈ List.range' 1 count, (UInt32.ofNat n).toNat = n := by
    intro n hn
    have hn := List.mem_range'_1.mp hn
    exact UInt32.toNat_ofNat_of_lt' (show n < 2 ^ 32 by omega)
  have hrelated := (List.forall₂_and_left _ _).mpr ⟨hnumber, Success.mapM_eq_ok.mp h⟩
  have hsame : (List.range' 1 count).map (fun n =>
      (rows.drop ((n - 1) * limit.toNat)).take limit.toNat) =
        requests.map fun r => r.rowsOf rows := by
    rw [← List.forall₂_eq_eq_eq, List.forall₂_map_left_iff, List.forall₂_map_right_iff]
    refine hrelated.imp fun n r hr => ?_
    obtain ⟨hpage, hlimit⟩ := make_eq_ok hr.2
    rw [rowsOf, offset, hpage, hlimit, hr.1]
  rw [← flatMap_windows, List.flatMap_def, ← hsame, List.range'_eq_map_range, List.map_map,
    List.flatMap_def]
  refine congrArg List.flatten (List.map_congr_left fun i _ => ?_)
  rw [Function.comp_apply, Nat.add_sub_cancel_left]

/-- Pages tile the rows they are cut from.  Where a limit is accepted and the pages can be numbered,
the pages are requests that are accepted too and show all rows, one page after the other; all
pages but the last are full, the last one is not empty and those beyond it are; a page has a next
one when there is a row after it; and for no request any number is too large for 64 bits. -/
theorem pages_tile (rows : List α) {limit : UInt32} {first : PageRequest}
    (hlimit : make 1 limit = .ok first) (hpages : (first.pageOf rows).totalPages < 2 ^ 32) :
    (∃ requests : List PageRequest,
      (List.range' 1 (first.pageOf rows).totalPages).mapM (fun n => make (UInt32.ofNat n) limit) =
        .ok requests ∧
      requests.flatMap (fun r => r.rowsOf rows) = rows) ∧
    (∀ r : PageRequest, r.limit = limit → r.Shows rows) ∧
    ∀ r : PageRequest, r.Exact := by
  refine ⟨?_, fun r _ => r.shows rows, exact⟩
  have haccepted : ∀ n ∈ List.range' 1 (first.pageOf rows).totalPages,
      ∃ r, make (UInt32.ofNat n) limit = .ok r := by
    intro n hn
    have hn := List.mem_range'_1.mp hn
    refine exists_make hlimit ?_
    rw [UInt32.toNat_ofNat_of_lt' (show n < 2 ^ 32 by omega)]
    exact hn.1
  obtain ⟨requests, hrequests⟩ := Success.exists_mapM_eq_ok.mpr haccepted
  refine ⟨requests, hrequests, ?_⟩
  rw [flatMap_rowsOf hpages hrequests, List.take_of_length_le]
  have hend := mt lt_totalPages.mpr (Nat.lt_irrefl (first.pageOf rows).totalPages)
  rw [(make_eq_ok hlimit).2] at hend
  exact Nat.le_of_not_lt hend

def byThrees : PageRequest where
  page := 1
  limit := 3
  sort := .unsorted
  page_pos := by decide
  limit_pos := by decide
  limit_le := by decide

theorem pages_tile_seven : make 1 3 = .ok byThrees ∧
    (byThrees.pageOf [2, 3, 5, 7, 11, 13, 17]).totalPages = 3 ∧
    ∃ requests : List PageRequest,
      (List.range' 1 3).mapM (fun n => make (UInt32.ofNat n) 3) = .ok requests ∧
      requests.flatMap (fun r => r.rowsOf [2, 3, 5, 7, 11, 13, 17]) =
        [2, 3, 5, 7, 11, 13, 17] := by
  have hlimit : make 1 3 = .ok byThrees := rfl
  have htotal : (byThrees.pageOf [2, 3, 5, 7, 11, 13, 17]).totalPages = 3 := by decide
  obtain ⟨htile, _⟩ := pages_tile [2, 3, 5, 7, 11, 13, 17] hlimit (by rw [htotal]; decide)
  rw [htotal] at htile
  exact ⟨hlimit, htotal, htile⟩

end PageRequest
end TableSearch
