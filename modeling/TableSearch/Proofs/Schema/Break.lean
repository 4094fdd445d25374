/-
Where a path breaks.

A path that cannot be followed breaks at its first segment that leads nowhere.  `Breaks` says
at which segment and why, without regard to the joins so far, and `resolve_eq_error` that
following a path fails exactly there.
-/
import TableSearch.Proofs.Schema.Walk

namespace TableSearch
namespace AttributePath

/-- The segments lead from an entity to a segment that breaks the path, and to the reason. -/
inductive Breaks (r : Registry) : Entity → List String → String → PathFault → Prop where
  | blank {e segment rest} (hblank : Text.isBlank segment = true) :
      Breaks r e (segment :: rest) segment .blankSegment
  | unknown {e segment rest} (hblank : Text.isBlank segment = false)
      (ha : e.attribute? segment = none) :
      Breaks r e (segment :: rest) segment (.noAttribute e.name)
  | inside {e segment next rest column type} (hblank : Text.isBlank segment = false)
      (ha : e.attribute? segment = some (.column column type)) :
      Breaks r e (segment :: next :: rest) segment (.columnInside segment e.name)
  | target {e segment rest target column references} (hblank : Text.isBlank segment = false)
      (ha : e.attribute? segment = some (.relation target column references))
      (ht : r.find? target = none) :
      Breaks r e (segment :: rest) segment (.unregisteredTarget target)
  | reference {e t segment target column references} (hblank : Text.isBlank segment = false)
      (ha : e.attribute? segment = some (.relation target column references))
      (ht : r.find? target = some t) (htype : t.columnType? references = none) :
      Breaks r e [segment] segment (.undeclaredColumn target references)
  | later {e t segment rest target column references stop fault}
      (hblank : Text.isBlank segment = false)
      (ha : e.attribute? segment = some (.relation target column references))
      (ht : r.find? target = some t) (h : Breaks r t rest stop fault) :
      Breaks r e (segment :: rest) stop fault

variable {r : Registry} {path segment : String} {e : Entity} {joins : List Join}
  {owner : Option String} {err : QueryError}

theorem attributeAt_eq_error :
    attributeAt path e segment = .error err ↔
      ∃ fault, err = .invalidPath path segment fault ∧
        ((Text.isBlank segment = true ∧ fault = .blankSegment) ∨
          (Text.isBlank segment = false ∧ e.attribute? segment = none ∧
            fault = .noAttribute e.name)) := by
  unfold attributeAt
  by_cases hblank : Text.isBlank segment = true
  · simp [hblank, eq_comm]
  · rw [if_neg hblank]
    cases ha : e.attribute? segment with
    | none => simp [hblank, eq_comm]
    | some a => simp [hblank]

theorem finish_eq_error {a : Attribute} :
    finish r path joins owner segment a = .error err ↔
      ∃ target column references, a = .relation target column references ∧
        ((r.find? target = none ∧ err = .invalidPath path segment (.unregisteredTarget target)) ∨
          ∃ t, r.find? target = some t ∧ t.columnType? references = none ∧
            err = .invalidPath path segment (.undeclaredColumn target references)) := by
  cases a with
  | column column type => simp [finish]
  | relation target column references =>
    unfold finish
    cases ht : r.find? target with
    | none => simp [ht, eq_comm]
    | some t => cases htype : t.columnType? references <;> simp [ht, htype, eq_comm]

/-! ## Following a path that breaks -/

/-- A segment before others must be a relation. -/
theorem follow_next {next : String} {rest : List String} :
    follow r path e joins owner (segment :: next :: rest) =
      attributeAt path e segment >>= fun a =>
        match a with
        | .column .. => .error (.invalidPath path segment (.columnInside segment e.name))
        | .relation target column references =>
            match r.find? target with
            | none => .error (.invalidPath path segment (.unregisteredTarget target))
            | some t => follow r path t (joins ++ [hop owner segment column references t])
                (some (extended owner segment)) (next :: rest) :=
  rfl

theorem breaks_of_finish {a : Attribute} (hblank : Text.isBlank segment = false)
    (ha : e.attribute? segment = some a) (h : finish r path joins owner segment a = .error err) :
    ∃ fault, Breaks r e [segment] segment fault ∧ err = .invalidPath path segment fault := by
  obtain ⟨target, column, references, rfl, hcase⟩ := finish_eq_error.mp h
  rcases hcase with ⟨ht, rfl⟩ | ⟨t, ht, htype, rfl⟩
  · exact ⟨_, .target hblank ha ht, rfl⟩
  · exact ⟨_, .reference hblank ha ht htype, rfl⟩

theorem breaks_of_attributeAt {rest : List String} (h : attributeAt path e segment = .error err) :
    ∃ fault, Breaks r e (segment :: rest) segment fault ∧
      err = .invalidPath path segment fault := by
  obtain ⟨fault, rfl, hcase⟩ := attributeAt_eq_error.mp h
  rcases hcase with ⟨hblank, rfl⟩ | ⟨hblank, ha, rfl⟩
  · exact ⟨_, .blank hblank, rfl⟩
  · exact ⟨_, .unknown hblank ha, rfl⟩

/-- What cannot be followed breaks. -/
theorem breaks_of_follow {segments : List String} (hne : segments ≠ [])
    (h : follow r path e joins owner segments = .error err) :
    ∃ stop fault, Breaks r e segments stop fault ∧ err = .invalidPath path stop fault := by
  induction segments generalizing e joins owner with
  | nil => exact absurd rfl hne
  | cons segment rest ih =>
    cases rest with
    | nil =>
      rw [follow, Success.bind_eq_error] at h
      rcases h with h | ⟨a, ha, h⟩
      · exact ⟨segment, breaks_of_attributeAt h⟩
      · obtain ⟨hblank, ha⟩ := attributeAt_eq_ok.mp ha
        exact ⟨segment, breaks_of_finish hblank ha h⟩
    | cons next rest =>
      rw [follow_next, Success.bind_eq_error] at h
      rcases h with h | ⟨a, ha, h⟩
      · exact ⟨segment, breaks_of_attributeAt h⟩
      · obtain ⟨hblank, ha⟩ := attributeAt_eq_ok.mp ha
        cases a with
        | column column type =>
          cases h
          exact ⟨segment, _, .inside hblank ha, rfl⟩
        | relation target column references =>
          cases ht : r.find? target with
          | none =>
            simp only [ht] at h
            cases h
            exact ⟨segment, _, .target hblank ha ht, rfl⟩
          | some t =>
            simp only [ht] at h
            obtain ⟨stop, fault, hbreaks, herr⟩ := ih (List.cons_ne_nil next rest) h
            exact ⟨stop, fault, .later hblank ha ht hbreaks, herr⟩

theorem follow_of_attributeAt {rest : List String} (h : attributeAt path e segment = .error err) :
    follow r path e joins owner (segment :: rest) = .error err := by
  cases rest with
  | nil =>
    rw [follow, h]
    rfl
  | cons next rest =>
    rw [follow_next, h]
    rfl

/-- A path that breaks fails at its break. -/
theorem Breaks.follow_eq {segments : List String} {stop : String} {fault : PathFault}
    (h : Breaks r e segments stop fault) :
    follow r path e joins owner segments = .error (.invalidPath path stop fault) := by
  induction h generalizing joins owner with
  | blank hblank =>
    exact follow_of_attributeAt (attributeAt_eq_error.mpr ⟨_, rfl, .inl ⟨hblank, rfl⟩⟩)
  | unknown hblank ha =>
    exact follow_of_attributeAt (attributeAt_eq_error.mpr ⟨_, rfl, .inr ⟨hblank, ha, rfl⟩⟩)
  | inside hblank ha =>
    rw [follow_next, attributeAt_eq_ok.mpr ⟨hblank, ha⟩]
    rfl
  | @target e segment rest target column references hblank ha ht =>
    cases rest with
    | nil =>
      rw [follow, attributeAt_eq_ok.mpr ⟨hblank, ha⟩]
      exact finish_eq_error.mpr ⟨target, column, references, rfl, .inl ⟨ht, rfl⟩⟩
    | cons next rest =>
      rw [follow_next, attributeAt_eq_ok.mpr ⟨hblank, ha⟩]
      simp only [bind, Except.bind, ht]
  | @reference e t segment target column references hblank ha ht htype =>
    rw [follow, attributeAt_eq_ok.mpr ⟨hblank, ha⟩]
    exact finish_eq_error.mpr ⟨target, column, references, rfl, .inr ⟨t, ht, htype, rfl⟩⟩
  | @later e t segment rest target column references stop fault hblank ha ht hbreaks ih =>
    cases rest with
    | nil => cases hbreaks
    | cons next rest =>
      rw [follow_next, attributeAt_eq_ok.mpr ⟨hblank, ha⟩]
      simp only [bind, Except.bind, ht]
      exact ih

/-- Following a path fails exactly where it breaks. -/
theorem resolve_eq_error {root : Entity} :
    resolve r root path = .error err ↔ ∃ stop fault,
      Breaks r root (Text.pieces Filter.segmentSeparator path) stop fault ∧
        err = .invalidPath path stop fault := by
  constructor
  · intro h
    exact breaks_of_follow Text.pieces_ne_nil h
  · rintro ⟨stop, fault, h, rfl⟩
    exact h.follow_eq

end AttributePath
end TableSearch
