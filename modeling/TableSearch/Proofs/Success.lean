/-
When computations that may fail succeed.

A chain succeeds when each part does, and a list of computations when every one does.
The proofs about plans and statements take their success apart with these.  A computation that
looks at one condition after the other fails with the first fault: `Checks`.
-/
import Mathlib.Data.List.Forall2
import TableSearch.Keyed

namespace TableSearch
namespace Success

variable {ε α β γ : Type}

theorem bind_eq_ok {x : Except ε α} {f : α → Except ε β} {b : β} :
    x >>= f = .ok b ↔ ∃ a, x = .ok a ∧ f a = .ok b := by
  cases x with
  | error e =>
    constructor
    · intro h
      cases h
    · rintro ⟨a, ha, _⟩
      cases ha
  | ok a =>
    constructor
    · intro h
      exact ⟨a, rfl, h⟩
    · rintro ⟨a', ha, h⟩
      cases ha
      exact h

/-- A chain fails with its first part or with its second. -/
theorem bind_eq_error {x : Except ε α} {f : α → Except ε β} {err : ε} :
    x >>= f = .error err ↔ x = .error err ∨ ∃ a, x = .ok a ∧ f a = .error err := by
  cases x with
  | error err' =>
    constructor
    · intro h
      cases h
      exact .inl rfl
    · rintro (h | ⟨a, ha, _⟩)
      · cases h
        rfl
      · cases ha
  | ok a =>
    constructor
    · intro h
      exact .inr ⟨a, rfl, h⟩
    · rintro (h | ⟨a', ha, h⟩)
      · cases h
      · cases ha
        exact h

/-- Of what comes second only what it makes of results counts. -/
theorem bind_congr {x : Except ε α} {f g : α → Except ε β} (h : ∀ a, x = .ok a → f a = g a) :
    x >>= f = x >>= g := by
  cases x with
  | error err => rfl
  | ok a => exact h a rfl

theorem toOption_eq_some {x : Except ε α} {a : α} : x.toOption = some a ↔ x = .ok a := by
  cases x with
  | error e => simp [Except.toOption]
  | ok b => simp [Except.toOption]

theorem mapError_eq_ok {δ : Type} {x : Except ε α} {f : ε → δ} {a : α} :
    x.mapError f = .ok a ↔ x = .ok a := by
  cases x with
  | error e =>
    constructor
    · intro h
      cases h
    · intro h
      cases h
  | ok b => simp [Except.mapError]

theorem mapError_eq_error {δ : Type} {x : Except ε α} {f : ε → δ} {err : δ} :
    x.mapError f = .error err ↔ ∃ cause, x = .error cause ∧ f cause = err := by
  cases x with
  | error e => simp [Except.mapError]
  | ok a => simp [Except.mapError]

theorem mapError_bind_pure {δ : Type} {x : Except ε α} {g : ε → δ} {f : α → β} :
    (x.mapError g >>= fun a => pure (f a)) = (x.map f).mapError g := by
  cases x <;> rfl

/-- A list of computations succeeds with the results of all of them. -/
theorem mapM_eq_ok {f : α → Except ε β} {as : List α} {bs : List β} :
    as.mapM f = .ok bs ↔ List.Forall₂ (fun a b => f a = .ok b) as bs := by
  induction as generalizing bs with
  | nil =>
    rw [List.mapM_nil, List.forall₂_nil_left_iff]
    constructor
    · intro h
      cases h
      rfl
    · intro h
      rw [h]
      rfl
  | cons a rest ih =>
    rw [List.mapM_cons, bind_eq_ok]
    constructor
    · rintro ⟨b, hb, h⟩
      obtain ⟨bs', hbs, h⟩ := bind_eq_ok.mp h
      cases h
      exact .cons hb (ih.mp hbs)
    · intro h
      cases h with
      | cons hb hbs => exact ⟨_, hb, bind_eq_ok.mpr ⟨_, ih.mpr hbs, rfl⟩⟩

theorem exists_mapM_eq_ok {f : α → Except ε β} {as : List α} :
    (∃ bs, as.mapM f = .ok bs) ↔ ∀ a ∈ as, ∃ b, f a = .ok b := by
  simp only [mapM_eq_ok]
  constructor
  · rintro ⟨bs, h⟩ a ha
    induction h with
    | nil => cases ha
    | cons hab _ ih =>
      rcases List.mem_cons.mp ha with rfl | ha
      · exact ⟨_, hab⟩
      · exact ih ha
  · intro h
    induction as with
    | nil => exact ⟨[], .nil⟩
    | cons a rest ih =>
      obtain ⟨⟨b, hb⟩, hrest⟩ := List.forall_mem_cons.mp h
      obtain ⟨bs, hbs⟩ := ih hrest
      exact ⟨b :: bs, .cons hb hbs⟩

/-- A list of checks succeeds when every check does. -/
theorem forM_eq_ok {f : α → Except ε Unit} {as : List α} :
    as.forM f = .ok () ↔ ∀ a ∈ as, f a = .ok () := by
  induction as with
  | nil =>
    constructor
    · intro _ a ha
      cases ha
    · intro _
      rfl
  | cons a rest ih =>
    show (f a >>= fun _ => rest.forM f) = .ok () ↔ _
    rw [bind_eq_ok]
    constructor
    · rintro ⟨_, ha, h⟩ b hb
      rcases List.mem_cons.mp hb with rfl | hb
      · exact ha
      · exact ih.mp h b hb
    · intro h
      exact ⟨(), h a List.mem_cons_self, ih.mpr fun b hb => h b (List.mem_cons_of_mem a hb)⟩

/-- A list of checks fails as the first check that fails. -/
theorem forM_eq_error {f : α → Except ε Unit} {as : List α} {err : ε} :
    as.forM f = .error err ↔ ∃ before a after, as = before ++ a :: after ∧
      f a = .error err ∧ ∀ b ∈ before, f b = .ok () := by
  induction as with
  | nil =>
    constructor
    · intro h
      cases h
    · rintro ⟨before, a, after, h, _⟩
      cases before <;> cases h
  | cons a rest ih =>
    show (f a >>= fun _ => rest.forM f) = .error err ↔ _
    cases ha : f a with
    | error err' =>
      constructor
      · intro h
        cases h
        exact ⟨[], a, rest, rfl, ha, List.forall_mem_nil _⟩
      · rintro ⟨before, b, after, hsplit, hb, hbefore⟩
        cases before with
        | nil =>
          cases hsplit
          rw [ha] at hb
          cases hb
          rfl
        | cons c before =>
          cases hsplit
          have hc := hbefore a List.mem_cons_self
          rw [ha] at hc
          cases hc
    | ok u =>
      show rest.forM f = .error err ↔ _
      rw [ih]
      constructor
      · rintro ⟨before, b, after, rfl, hb, hbefore⟩
        exact ⟨a :: before, b, after, rfl, hb, List.forall_mem_cons.mpr ⟨ha, hbefore⟩⟩
      · rintro ⟨before, b, after, hsplit, hb, hbefore⟩
        cases before with
        | nil =>
          cases hsplit
          rw [ha] at hb
          cases hb
        | cons c before =>
          cases hsplit
          exact ⟨before, b, after, rfl, hb, (List.forall_mem_cons.mp hbefore).2⟩

/-- The first check that fails, when the items are in the order of their keys. -/
theorem forM_keyed_eq_error {key : α → String} {c : Keyed α key} {f : α → Except ε Unit}
    {err : ε} :
    c.items.forM f = .error err ↔ ∃ a ∈ c.items, f a = .error err ∧
      ∀ b ∈ c.items, key b < key a → f b = .ok () := by
  rw [forM_eq_error]
  constructor
  · rintro ⟨before, a, after, hsplit, ha, hbefore⟩
    have hinc := c.increasing
    rw [hsplit, List.pairwise_append, List.pairwise_cons] at hinc
    refine ⟨a, hsplit ▸ List.mem_append_right _ List.mem_cons_self, ha, ?_⟩
    intro b hb hlt
    rw [hsplit] at hb
    rcases List.mem_append.mp hb with hb | hb
    · exact hbefore b hb
    · rcases List.mem_cons.mp hb with rfl | hb
      · exact absurd hlt (String.lt_irrefl _)
      · exact absurd (String.lt_trans hlt (hinc.2.1.1 b hb)) (String.lt_irrefl _)
  · rintro ⟨a, ha, hfails, hbefore⟩
    obtain ⟨before, after, hsplit⟩ := List.append_of_mem ha
    have hinc := c.increasing
    rw [hsplit, List.pairwise_append] at hinc
    refine ⟨before, a, after, hsplit, hfails, fun b hb => hbefore b ?_ ?_⟩
    · rw [hsplit]
      exact List.mem_append_left _ hb
    · exact hinc.2.2 b hb a List.mem_cons_self

/-- Computations fail as the checks do that forget their results. -/
theorem mapM_eq_error_iff {f : α → Except ε β} {as : List α} {err : ε} :
    as.mapM f = .error err ↔ (as.forM fun a => (f a).map fun _ => ()) = .error err := by
  induction as with
  | nil =>
    constructor
    · intro h
      cases h
    · intro h
      cases h
  | cons a rest ih =>
    rw [List.mapM_cons]
    show _ ↔ ((f a).map (fun _ => ()) >>= fun _ => rest.forM _) = .error err
    cases f a with
    | error err' =>
      constructor
      · intro h
        cases h
        rfl
      · intro h
        cases h
        rfl
    | ok b =>
      show (rest.mapM f >>= fun bs => pure (b :: bs)) = _ ↔ rest.forM _ = _
      rw [← ih, bind_eq_error]
      constructor
      · rintro (h | ⟨bs, _, h⟩)
        · exact h
        · cases h
      · exact .inl

theorem map_eq_ok {δ : Type} {x : Except ε α} {f : α → δ} {b : δ} :
    x.map f = .ok b ↔ ∃ a, x = .ok a ∧ f a = b := by
  cases x with
  | error err => simp [Except.map]
  | ok a => simp [Except.map]

theorem map_eq_error {δ : Type} {x : Except ε α} {f : α → δ} {err : ε} :
    x.map f = .error err ↔ x = .error err := by
  cases x with
  | error err => simp [Except.map]
  | ok a => simp [Except.map]

/-- A list of computations fails as the first one that fails. -/
theorem mapM_eq_error {f : α → Except ε β} {as : List α} {err : ε} :
    as.mapM f = .error err ↔ ∃ before a after, as = before ++ a :: after ∧
      f a = .error err ∧ ∀ b ∈ before, ∃ c, f b = .ok c := by
  simp only [mapM_eq_error_iff, forM_eq_error, map_eq_error, map_eq_ok, and_true]

/-- The first computation that fails, when the items are in the order of their keys. -/
theorem mapM_keyed_eq_error {key : α → String} {c : Keyed α key} {f : α → Except ε β}
    {err : ε} :
    c.items.mapM f = .error err ↔ ∃ a ∈ c.items, f a = .error err ∧
      ∀ b ∈ c.items, key b < key a → ∃ x, f b = .ok x := by
  simp only [mapM_eq_error_iff, forM_keyed_eq_error, map_eq_error, map_eq_ok, and_true]

/-- Two computations for each item, one after the other or the second on all results of the
first. -/
theorem mapM_bind {f : α → Except ε β} {g : β → Except ε γ} {as : List α} {bs : List β}
    (h : as.mapM f = .ok bs) : (as.mapM fun a => f a >>= g) = bs.mapM g := by
  have hrelated := mapM_eq_ok.mp h
  clear h
  induction hrelated with
  | nil => rfl
  | cons hab _ ih =>
    rw [List.mapM_cons, List.mapM_cons, hab, ih]
    rfl

theorem eq_ok_iff {x : Except ε Unit} : x = .ok () ↔ ∀ err, x ≠ .error err := by
  cases x with
  | error err => simp
  | ok u => simp

/-! ## The first fault -/

section First

variable {κ : Type} {fault : κ → ε → Prop} {cs ds : List κ} {c : κ} {err : ε} {x : Except ε α}

/-- Of some conditions, in the order in which they are looked at, the first with a fault has
this one. -/
def First (fault : κ → ε → Prop) (cs : List κ) (err : ε) : Prop :=
  ∃ before c after, cs = before ++ c :: after ∧ fault c err ∧
    ∀ earlier ∈ before, ∀ other, ¬ fault earlier other

theorem not_first_nil : ¬ First fault [] err := by
  rintro ⟨before, c, after, hsplit, -⟩
  cases before <;> cases hsplit

theorem first_cons : First fault (c :: cs) err ↔
    fault c err ∨ (∀ other, ¬ fault c other) ∧ First fault cs err := by
  constructor
  · rintro ⟨before, d, after, hsplit, hd, hbefore⟩
    cases before with
    | nil =>
      cases hsplit
      exact .inl hd
    | cons b before =>
      cases hsplit
      obtain ⟨hc, hbefore⟩ := List.forall_mem_cons.mp hbefore
      exact .inr ⟨hc, before, d, after, rfl, hd, hbefore⟩
  · rintro (hc | ⟨hc, before, d, after, rfl, hd, hbefore⟩)
    · exact ⟨[], c, cs, rfl, hc, List.forall_mem_nil _⟩
    · exact ⟨c :: before, d, after, rfl, hd, List.forall_mem_cons.mpr ⟨hc, hbefore⟩⟩

/-- There is no first fault when there is none. -/
theorem forall_not_first : (∀ err, ¬ First fault cs err) ↔ ∀ c ∈ cs, ∀ err, ¬ fault c err := by
  induction cs with
  | nil => simp [not_first_nil]
  | cons c rest ih =>
    rw [List.forall_mem_cons, ← ih]
    simp only [first_cons, not_or, not_and, forall_and]
    exact and_congr_right fun hc => forall_congr' fun err => ⟨fun h => h hc, fun h _ => h⟩

theorem first_append : First fault (cs ++ ds) err ↔
    First fault cs err ∨ (∀ other, ¬ First fault cs other) ∧ First fault ds err := by
  induction cs with
  | nil => simp [not_first_nil]
  | cons c rest ih =>
    rw [List.cons_append, first_cons, ih, first_cons, forall_not_first, forall_not_first,
      List.forall_mem_cons]
    tauto

/-- A computation looks at conditions in their order, and fails with the first fault. -/
def Checks (fault : κ → ε → Prop) (x : Except ε α) (cs : List κ) : Prop :=
  ∀ err, x = .error err ↔ First fault cs err

theorem checks_pure (a : α) : Checks fault (.ok a) [] := by
  intro err
  simp [not_first_nil]

theorem checks_one (h : ∀ err, x = .error err ↔ fault c err) : Checks fault x [c] := by
  intro err
  rw [first_cons, h]
  simp [not_first_nil]

/-- A chain looks at the conditions of its parts, one part after the other. -/
theorem Checks.bind {f : α → Except ε β} (hx : Checks fault x cs)
    (hf : ∀ a, x = .ok a → Checks fault (f a) ds) : Checks fault (x >>= f) (cs ++ ds) := by
  intro err
  rw [bind_eq_error, first_append, ← hx err]
  refine or_congr_right ?_
  -- The second part counts only after a first part that succeeds, and so has no fault.
  cases hresult : x with
  | error e =>
    have hfirst : First fault cs e := (hx e).mp hresult
    constructor
    · rintro ⟨a, ha, -⟩
      cases ha
    · rintro ⟨hnone, -⟩
      exact absurd hfirst (hnone e)
  | ok a =>
    have hnone : ∀ other, ¬ First fault cs other := by
      intro other hother
      rw [← hx other, hresult] at hother
      cases hother
    rw [← hf a hresult err]
    simp [hnone]

theorem Checks.ite {p : Prop} [Decidable p] {e : ε} (hc : ∀ err, fault c err ↔ p ∧ err = e)
    (hx : Checks fault x cs) : Checks fault (if p then .error e else x) (c :: cs) := by
  intro err
  rw [first_cons, ← hx err]
  by_cases hp : p
  · simp [hc, hp, eq_comm]
  · simp [hc, hp]

/-- It succeeds when no condition has a fault. -/
theorem Checks.ok_iff (hx : Checks fault x cs) :
    (∃ a, x = .ok a) ↔ ∀ c ∈ cs, ∀ err, ¬ fault c err := by
  rw [← forall_not_first]
  simp only [← hx _]
  cases x with
  | error e => simp
  | ok a => simp

end First

/-! ## Related lists -/

theorem forall₂_comp {R : α → β → Prop} {S : β → γ → Prop} {as : List α} {bs : List β}
    {cs : List γ} (h : List.Forall₂ R as bs) (h' : List.Forall₂ S bs cs) :
    List.Forall₂ (fun a c => ∃ b, R a b ∧ S b c) as cs := by
  induction h generalizing cs with
  | nil =>
    cases h'
    exact .nil
  | cons hab _ ih =>
    cases h' with
    | cons hbc h' => exact .cons ⟨_, hab, hbc⟩ (ih h')

theorem exists_of_mem_right {R : α → β → Prop} {as : List α} {bs : List β}
    (h : List.Forall₂ R as bs) {b : β} (hb : b ∈ bs) : ∃ a ∈ as, R a b := by
  induction h with
  | nil => cases hb
  | @cons a _ _ _ hab _ ih =>
    rcases List.mem_cons.mp hb with rfl | hb
    · exact ⟨a, List.mem_cons_self, hab⟩
    · obtain ⟨a', ha', h⟩ := ih hb
      exact ⟨a', List.mem_cons_of_mem a ha', h⟩

theorem exists_map_some {f : α → Option β} {as : List α} (h : ∀ a ∈ as, ∃ b, f a = some b) :
    ∃ bs : List β, as.map f = bs.map some := by
  induction as with
  | nil => exact ⟨[], rfl⟩
  | cons a rest ih =>
    obtain ⟨b, hb⟩ := h a List.mem_cons_self
    obtain ⟨bs, hbs⟩ := ih fun a' ha' => h a' (List.mem_cons_of_mem a ha')
    exact ⟨b :: bs, by rw [List.map_cons, List.map_cons, hb, hbs]⟩

/-- Properties that are alike for related items hold of all items of both lists or of
neither. -/
theorem forall_mem_iff {R : α → β → Prop} {P : α → Prop} {Q : β → Prop} {as : List α}
    {bs : List β} (h : List.Forall₂ R as bs) (hPQ : ∀ a, ∀ b ∈ bs, R a b → (P a ↔ Q b)) :
    (∀ a ∈ as, P a) ↔ ∀ b ∈ bs, Q b := by
  induction h with
  | nil => simp
  | cons hab _ ih =>
    rw [List.forall_mem_cons, List.forall_mem_cons, hPQ _ _ List.mem_cons_self hab,
      ih fun a b hb => hPQ a b (List.mem_cons_of_mem _ hb)]

end Success
end TableSearch
