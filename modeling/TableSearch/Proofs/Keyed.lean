/-
Collections that are filled item by item.

A collection is what is found in it under each key (`ext_find?`), and of many items put in one
after the other the last one under a key is found: `find?_ofList_eq_some`.  So a collection is
filled again by its own items, in their order.
-/
import Mathlib.Data.List.Sort
import TableSearch.Keyed

namespace TableSearch
namespace Keyed

variable {α : Type} {key : α → String} {c d : Keyed α key} {a : α} {k : String} {items : List α}

theorem mem_iff_find? : a ∈ c.items ↔ c.find? (key a) = some a :=
  ⟨find?_of_mem, mem_of_find?⟩

/-- Collections in which the same is found under every key are the same. -/
theorem ext_find? (h : ∀ k, c.find? k = d.find? k) : c = d := by
  have : Std.Irrefl fun a b : α => key a < key b := ⟨fun _ => String.lt_irrefl _⟩
  have : Std.Antisymm fun a b : α => key a < key b :=
    ⟨fun _ _ hab hba => absurd hba (String.lt_asymm hab)⟩
  refine ext (c.increasing.eq_of_mem_iff d.increasing fun a => ?_)
  rw [mem_iff_find?, mem_iff_find?, h]

theorem ofList_append (items later : List α) :
    (ofList (items ++ later) : Keyed α key) = later.foldl insert (ofList items) :=
  List.foldl_append

/-- Of the items under a key the last one stays. -/
theorem find?_foldl_insert (items : List α) (c : Keyed α key) (k : String) :
    (items.foldl insert c).find? k =
      (items.reverse.find? fun a => key a == k).or (c.find? k) := by
  induction items generalizing c with
  | nil => rfl
  | cons a rest ih =>
    rw [List.foldl_cons, ih, find?_insert, List.reverse_cons, List.find?_append, Option.or_assoc]
    by_cases ha : key a = k <;> simp [ha]

/-- Items under different keys are put in in any order. -/
theorem insert_comm {b : α} (h : key a ≠ key b) (c : Keyed α key) :
    (c.insert a).insert b = (c.insert b).insert a := by
  refine ext_find? fun k => ?_
  simp only [find?_insert]
  by_cases ha : key a = k
  · have hb : key b ≠ k := fun hb => h (ha.trans hb.symm)
    simp [ha, hb]
  · simp [ha]

theorem foldl_insert_perm {items' : List α} (h : items.Perm items')
    (hkeys : (items.map key).Nodup) (c : Keyed α key) :
    items.foldl insert c = items'.foldl insert c := by
  refine h.foldl_eq' (fun a ha b hb d => ?_) c
  by_cases hsame : key a = key b
  · rw [List.inj_on_of_nodup_map hkeys ha hb hsame]
  · exact insert_comm hsame d

theorem find?_ofList (items : List α) (k : String) :
    (ofList items : Keyed α key).find? k = items.reverse.find? fun a => key a == k := by
  rw [ofList, find?_foldl_insert, find?_empty, Option.or_none]

theorem find?_ofList_eq_some :
    (ofList items : Keyed α key).find? k = some a ↔ ∃ before after,
      items = before ++ a :: after ∧ key a = k ∧ ∀ b ∈ after, key b ≠ k := by
  rw [find?_ofList, List.find?_eq_some_iff_append]
  simp only [beq_iff_eq, Bool.not_eq_eq_eq_not, Bool.not_true, beq_eq_false_iff_ne]
  constructor
  · rintro ⟨hk, after, before, hsplit, hafter⟩
    refine ⟨before.reverse, after.reverse, ?_, hk,
      fun b hb => hafter b (List.mem_reverse.mp hb)⟩
    rw [← List.reverse_reverse items, hsplit]
    simp
  · rintro ⟨before, after, rfl, hk, hafter⟩
    exact ⟨hk, after.reverse, before.reverse, by simp,
      fun b hb => hafter b (List.mem_reverse.mp hb)⟩

theorem contains_ofList :
    (ofList items : Keyed α key).contains k = true ↔ ∃ a ∈ items, key a = k := by
  rw [contains, find?_ofList, List.find?_isSome]
  simp

theorem find?_reverse_items (c : Keyed α key) (k : String) :
    (c.items.reverse.find? fun a => key a == k) = c.find? k := by
  cases hfind : c.items.reverse.find? fun a => key a == k with
  | some a =>
    have hmem : a ∈ c.items := List.mem_reverse.mp (List.mem_of_find?_eq_some hfind)
    have hk : key a = k := by simpa using List.find?_some hfind
    rw [← hk, find?_of_mem hmem]
  | none =>
    rw [find?, List.find?_eq_none.mpr fun a ha =>
      List.find?_eq_none.mp hfind a (List.mem_reverse.mpr ha)]

/-- The items of a collection make it again, after any items under its keys. -/
theorem ofList_append_items {before : List α} (h : ∀ a ∈ before, c.contains (key a) = true) :
    ofList (before ++ c.items) = c := by
  refine ext_find? fun k => ?_
  rw [find?_ofList, List.reverse_append, List.find?_append, find?_reverse_items]
  cases hfound : c.find? k with
  | some a => rfl
  | none =>
    rw [Option.none_or, List.find?_eq_none]
    intro a ha hk
    have hcontains := h a (List.mem_reverse.mp ha)
    rw [eq_of_beq hk, contains, hfound] at hcontains
    cases hcontains

theorem ofList_items (c : Keyed α key) : ofList c.items = c :=
  ofList_append_items (List.forall_mem_nil _)

/-- An item is placed as its entry is in a map. -/
theorem map_place (a : α) (items : List α) :
    (place key a items).map (fun a => (key a, a)) =
      place Prod.fst (key a, a) (items.map fun a => (key a, a)) := by
  induction items with
  | nil => rfl
  | cons b rest ih =>
    rw [List.map_cons, place, place]
    dsimp only
    split
    · rfl
    · split
      · rw [List.map_cons, ih]
      · rfl

end Keyed

namespace Dict

variable {α : Type} {d e : Dict α}

theorem mem_keys {k : String} : k ∈ Keyed.keys d ↔ ∃ a, d.get? k = some a := by
  simp only [get?_eq_some, Keyed.keys, List.mem_map]
  constructor
  · rintro ⟨entry, hentry, rfl⟩
    exact ⟨entry.2, hentry⟩
  · rintro ⟨a, ha⟩
    exact ⟨(k, a), ha, rfl⟩

/-- Maps in which the same stands under every key are the same. -/
theorem ext_get? (h : ∀ k, d.get? k = e.get? k) : d = e := by
  have hentry : ∀ (c : Dict α) (k : String), Keyed.find? c k = (c.get? k).map fun a => (k, a) := by
    intro c k
    rw [get?]
    cases hfind : Keyed.find? c k with
    | none => rfl
    | some entry =>
      have hk : entry.1 = k := Keyed.key_of_find? hfind
      rw [← hk]
      rfl
  exact Keyed.ext_find? fun k => by rw [hentry, hentry, h]

end Dict
end TableSearch
