/-
Collections ordered by a text key.

A key occurs once, and the items stand in increasing order of their keys, code
point by code point.  This is also the order of the keys' UTF-8 bytes.
-/

namespace TableSearch

/-- Items under distinct keys, in key order. -/
structure Keyed (α : Type) (key : α → String) where
  items : List α
  increasing : items.Pairwise (fun a b => key a < key b)

namespace Keyed

variable {α : Type} {key : α → String}

theorem ext {c d : Keyed α key} (h : c.items = d.items) : c = d := by
  cases c
  cases d
  cases h
  rfl

instance [DecidableEq α] : DecidableEq (Keyed α key) := fun c d =>
  if h : c.items = d.items then isTrue (ext h)
  else isFalse fun e => h (by rw [e])

def empty : Keyed α key where
  items := []
  increasing := List.Pairwise.nil

instance : Inhabited (Keyed α key) := ⟨empty⟩

/-- The item under key `k`. -/
def find? (c : Keyed α key) (k : String) : Option α :=
  c.items.find? fun a => key a == k

def contains (c : Keyed α key) (k : String) : Bool :=
  (c.find? k).isSome

def keys (c : Keyed α key) : List String :=
  c.items.map key

def size (c : Keyed α key) : Nat :=
  c.items.length

def isEmpty (c : Keyed α key) : Bool :=
  c.items.isEmpty

/-! ## Insertion -/

/-- Put `a` at its place, instead of an item under the same key. -/
def place (key : α → String) (a : α) : List α → List α
  | [] => [a]
  | b :: rest =>
      if key a < key b then a :: b :: rest
      else if key b < key a then b :: place key a rest
      else a :: rest

theorem mem_place {a x : α} {items : List α} (h : x ∈ place key a items) :
    x = a ∨ x ∈ items := by
  induction items with
  | nil =>
    left
    simpa [place] using h
  | cons b rest ih =>
    rw [place] at h
    split at h
    · simpa using h
    · split at h
      · rcases List.mem_cons.mp h with h | h
        · exact .inr (by simp [h])
        · rcases ih h with h | h
          · exact .inl h
          · exact .inr (by simp [h])
      · rcases List.mem_cons.mp h with h | h
        · exact .inl h
        · exact .inr (by simp [h])

theorem place_increasing {a : α} {items : List α}
    (h : items.Pairwise (fun a b => key a < key b)) :
    (place key a items).Pairwise (fun a b => key a < key b) := by
  induction items with
  | nil => simp [place]
  | cons b rest ih =>
    obtain ⟨hb, hrest⟩ := List.pairwise_cons.mp h
    rw [place]
    split
    · next hab =>
      refine List.pairwise_cons.mpr ⟨fun x hx => ?_, h⟩
      rcases List.mem_cons.mp hx with hx | hx
      · rw [hx]
        exact hab
      · exact String.lt_trans hab (hb x hx)
    · split
      · next hba =>
        refine List.pairwise_cons.mpr ⟨fun x hx => ?_, ih hrest⟩
        rcases mem_place hx with hx | hx
        · rw [hx]
          exact hba
        · exact hb x hx
      · next hab hba =>
        have heq : key a = key b :=
          Std.Trichotomous.trichotomous (r := ((· < ·) : String → String → Prop)) _ _ hab hba
        refine List.pairwise_cons.mpr ⟨fun x hx => ?_, hrest⟩
        rw [heq]
        exact hb x hx

/-- The collection with `a` under its key, instead of any item that was there. -/
def insert (c : Keyed α key) (a : α) : Keyed α key where
  items := place key a c.items
  increasing := place_increasing c.increasing

/-- Insertion one by one, so that the last item under a key stays. -/
def ofList (items : List α) : Keyed α key :=
  items.foldl insert empty

/-! ## Look-up after insertion -/

theorem find?_place (a : α) (items : List α) (k : String)
    (h : items.Pairwise (fun a b => key a < key b)) :
    (place key a items).find? (fun x => key x == k) =
      if key a = k then some a else items.find? (fun x => key x == k) := by
  induction items with
  | nil =>
    by_cases hk : key a = k <;> simp [place, hk]
  | cons b rest ih =>
    obtain ⟨hb, hrest⟩ := List.pairwise_cons.mp h
    rw [place]
    split
    · by_cases hk : key a = k <;> simp [List.find?_cons, hk]
    · next hab =>
      split
      · next hba =>
        have hne : key a ≠ key b := fun e => String.lt_irrefl _ (e ▸ hba)
        by_cases hk : key a = k
        · have hbk : key b ≠ k := fun e => hne (hk.trans e.symm)
          simp [hbk, ih hrest, hk]
        · simp [List.find?_cons, ih hrest, hk]
      · next hba =>
        have heq : key a = key b :=
          Std.Trichotomous.trichotomous (r := ((· < ·) : String → String → Prop)) _ _ hab hba
        by_cases hk : key a = k
        · simp [hk]
        · have hbk : key b ≠ k := fun e => hk (heq.trans e)
          simp [hk, hbk]

@[simp] theorem find?_insert (c : Keyed α key) (a : α) (k : String) :
    (c.insert a).find? k = if key a = k then some a else c.find? k :=
  find?_place a c.items k c.increasing

@[simp] theorem find?_empty (k : String) : (empty : Keyed α key).find? k = none := rfl

theorem key_of_find? {c : Keyed α key} {k : String} {a : α} (h : c.find? k = some a) :
    key a = k := by
  have := List.find?_some h
  simpa using this

theorem mem_of_find? {c : Keyed α key} {k : String} {a : α} (h : c.find? k = some a) :
    a ∈ c.items :=
  List.mem_of_find?_eq_some h

/-- Every item is found under its key. -/
theorem find?_of_mem {c : Keyed α key} {a : α} (h : a ∈ c.items) : c.find? (key a) = some a := by
  obtain ⟨items, hinc⟩ := c
  induction items with
  | nil => cases h
  | cons b rest ih =>
    obtain ⟨hb, hrest⟩ := List.pairwise_cons.mp hinc
    rcases List.mem_cons.mp h with rfl | hmem
    · simp [find?]
    · have hne : key b ≠ key a := fun e => String.lt_irrefl _ (e ▸ hb a hmem)
      have hfound := ih hrest hmem
      simpa [find?, hne] using hfound

end Keyed

/-- A map from texts, in key order. -/
abbrev Dict (α : Type) : Type := Keyed (String × α) Prod.fst

namespace Dict

variable {α : Type}

def get? (d : Dict α) (k : String) : Option α :=
  (Keyed.find? d k).map Prod.snd

def set (d : Dict α) (k : String) (a : α) : Dict α :=
  Keyed.insert d (k, a)

def entries (d : Dict α) : List (String × α) :=
  d.items

def values (d : Dict α) : List α :=
  d.items.map Prod.snd

theorem get?_eq_some {d : Dict α} {k : String} {a : α} :
    d.get? k = some a ↔ (k, a) ∈ d.entries := by
  constructor
  · intro h
    obtain ⟨entry, hfound, rfl⟩ := Option.map_eq_some_iff.mp h
    rw [← Keyed.key_of_find? hfound]
    exact Keyed.mem_of_find? hfound
  · intro h
    have hfound : Keyed.find? d k = some (k, a) := Keyed.find?_of_mem h
    rw [get?, hfound]
    rfl

theorem get?_set (d : Dict α) (k l : String) (a : α) :
    (d.set k a).get? l = if k = l then some a else d.get? l := by
  rw [get?, set, Keyed.find?_insert]
  by_cases h : k = l <;> simp [h, get?]

end Dict

end TableSearch
