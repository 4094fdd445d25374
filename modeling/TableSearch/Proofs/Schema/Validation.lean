/-
What a valid registry promises to searches.

Validation looks at every relation of every entity under the entity's own name, and a path only
ever reaches entities by their names.  So no path of a valid registry breaks at a relation that
dangles, and a relation that validation refuses breaks the path that is its name:
`validate_rules_out_dangling`.
-/
import TableSearch.Proofs.Schema.Break

namespace TableSearch

namespace Entity

def Declares (e : Entity) (column : String) : Prop :=
  ∃ name type, (name, Attribute.column column type) ∈ e.attributes.entries

theorem columnType?_eq_none {e : Entity} {column : String} :
    e.columnType? column = none ↔ ¬ e.Declares column := by
  rw [columnType?, List.findSome?_eq_none_iff]
  constructor
  · rintro h ⟨name, type, hmem⟩
    have hnone := h _ (List.mem_map_of_mem hmem)
    simp [declaredType?] at hnone
  · intro h a ha
    obtain ⟨⟨name, a⟩, hmem, rfl⟩ := List.mem_map.mp ha
    cases a with
    | column c type =>
      refine if_neg ?_
      rintro rfl
      exact h ⟨name, type, hmem⟩
    | relation target column references => rfl

end Entity

namespace Registry

variable {r : Registry} {e : Entity} {err : QueryError}

/-! ## Faults -/

/-- An attribute of an entity is a relation that leads nowhere. -/
inductive Dangles (r : Registry) (e : Entity) : String × Attribute → SchemaFault → Prop where
  | target {name target column references} (ht : r.find? target = none) :
      Dangles r e (name, .relation target column references) (.unknownTarget e.name name target)
  | column {name target column references t} (ht : r.find? target = some t)
      (hcolumn : ¬ t.Declares references) :
      Dangles r e (name, .relation target column references)
        (.unknownColumn e.name name target references)

/-- The fault of an entity: it has no table, or this is its first attribute that dangles. -/
inductive Faulty (r : Registry) (e : Entity) : SchemaFault → Prop where
  | table (hblank : Text.isBlank e.table = true) : Faulty r e (.blankTable e.name)
  | relation {entry fault} (hblank : Text.isBlank e.table = false)
      (hmem : entry ∈ e.attributes.entries) (hfault : Dangles r e entry fault)
      (hfirst : ∀ other ∈ e.attributes.entries, other.1 < entry.1 →
        ∀ fault, ¬ Dangles r e other fault) : Faulty r e fault

theorem checkAttribute_eq_error {name : String} {a : Attribute} :
    checkAttribute r e name a = .error err ↔
      ∃ fault, Dangles r e (name, a) fault ∧ err = .invalidSchema fault := by
  constructor
  · intro h
    cases a with
    | column column type => cases h
    | relation target column references =>
      unfold checkAttribute at h
      cases ht : r.find? target with
      | none =>
        simp only [ht, Except.error.injEq] at h
        exact ⟨_, .target ht, h.symm⟩
      | some t =>
        cases htype : t.columnType? references with
        | none =>
          simp only [ht, htype, Except.error.injEq] at h
          exact ⟨_, .column ht (Entity.columnType?_eq_none.mp htype), h.symm⟩
        | some type => simp [ht, htype] at h
  · rintro ⟨fault, h, rfl⟩
    cases h with
    | target ht => simp [checkAttribute, ht]
    | column ht hcolumn => simp [checkAttribute, ht, Entity.columnType?_eq_none.mpr hcolumn]

theorem checkAttribute_eq_ok {name : String} {a : Attribute} :
    checkAttribute r e name a = .ok () ↔ ∀ fault, ¬ Dangles r e (name, a) fault := by
  rw [Success.eq_ok_iff]
  constructor
  · intro h fault hfault
    exact h _ (checkAttribute_eq_error.mpr ⟨fault, hfault, rfl⟩)
  · intro h err herr
    obtain ⟨fault, hfault, _⟩ := checkAttribute_eq_error.mp herr
    exact h fault hfault

theorem checkEntity_eq_error :
    checkEntity r e = .error err ↔ ∃ fault, Faulty r e fault ∧ err = .invalidSchema fault := by
  unfold checkEntity
  by_cases hblank : Text.isBlank e.table = true
  · rw [if_pos hblank]
    constructor
    · intro h
      cases h
      exact ⟨_, .table hblank, rfl⟩
    · rintro ⟨fault, hfault, rfl⟩
      cases hfault with
      | table => rfl
      | relation hno => simp [hblank] at hno
  · rw [if_neg hblank]
    have hblank : Text.isBlank e.table = false := by simpa using hblank
    show e.attributes.items.forM _ = _ ↔ _
    rw [Success.forM_keyed_eq_error]
    constructor
    · rintro ⟨⟨name, a⟩, hmem, ha, hfirst⟩
      obtain ⟨fault, hfault, rfl⟩ := checkAttribute_eq_error.mp ha
      refine ⟨fault, .relation hblank hmem hfault ?_, rfl⟩
      intro other hother hlt
      exact checkAttribute_eq_ok.mp (hfirst other hother hlt)
    · rintro ⟨fault, hfault, rfl⟩
      cases hfault with
      | table hyes => simp [hblank] at hyes
      | @relation entry _ _ hmem hfault hfirst =>
        refine ⟨entry, hmem, checkAttribute_eq_error.mpr ⟨fault, hfault, rfl⟩, ?_⟩
        intro other hother hlt
        exact checkAttribute_eq_ok.mpr (hfirst other hother hlt)

theorem checkEntity_eq_ok : checkEntity r e = .ok () ↔ ∀ fault, ¬ Faulty r e fault := by
  rw [Success.eq_ok_iff]
  constructor
  · intro h fault hfault
    exact h _ (checkEntity_eq_error.mpr ⟨fault, hfault, rfl⟩)
  · intro h err herr
    obtain ⟨fault, hfault, _⟩ := checkEntity_eq_error.mp herr
    exact h fault hfault

/-- Validation fails with the fault of the first entity that has one. -/
theorem validate_eq_error :
    validate r = .error err ↔ ∃ e ∈ r.items, ∃ fault, Faulty r e fault ∧
      (∀ other ∈ r.items, other.name < e.name → ∀ fault, ¬ Faulty r other fault) ∧
        err = .invalidSchema fault := by
  unfold validate
  rw [Success.forM_keyed_eq_error]
  constructor
  · rintro ⟨e, he, hcheck, hfirst⟩
    obtain ⟨fault, hfault, rfl⟩ := checkEntity_eq_error.mp hcheck
    exact ⟨e, he, fault, hfault,
      fun other hother hlt => checkEntity_eq_ok.mp (hfirst other hother hlt), rfl⟩
  · rintro ⟨e, he, fault, hfault, hfirst, rfl⟩
    exact ⟨e, he, checkEntity_eq_error.mpr ⟨fault, hfault, rfl⟩,
      fun other hother hlt => checkEntity_eq_ok.mpr (hfirst other hother hlt)⟩

theorem not_dangles_of_validate (h : validate r = .ok ()) (he : e ∈ r.items)
    {entry : String × Attribute} (hmem : entry ∈ e.attributes.entries) (fault : SchemaFault) :
    ¬ Dangles r e entry fault := by
  have hcheck := Success.forM_eq_ok.mp h e he
  unfold checkEntity at hcheck
  split at hcheck
  · cases hcheck
  · exact checkAttribute_eq_ok.mp (Success.forM_eq_ok.mp hcheck entry hmem) fault

theorem get_eq_ok {name : String} : r.get name = .ok e ↔ r.find? name = some e := by
  unfold get
  cases h : r.find? name with
  | none => simp
  | some e' => simp

theorem get_eq_error {name : String} :
    r.get name = .error err ↔ r.find? name = none ∧ err = .unknownEntity name := by
  unfold get
  cases h : r.find? name with
  | none => simp [eq_comm]
  | some e' => simp

end Registry

/-! ## Paths -/

namespace PathFault

/-- The fault lies in the path, whatever the relations of the registry lead to: a blank segment,
an attribute that is not there, or a column in the place of a relation. -/
def OfPath (fault : PathFault) : Prop :=
  fault = .blankSegment ∨ (∃ entity, fault = .noAttribute entity) ∨
    ∃ name entity, fault = .columnInside name entity

end PathFault

namespace Registry

open AttributePath (Breaks resolve resolve_eq_error)

variable {r : Registry} {e : Entity} {err : QueryError}

/-- From an entity of a valid registry, no path breaks at a relation that dangles. -/
theorem ofPath_of_breaks (h : validate r = .ok ()) {segments : List String} {stop : String}
    {fault : PathFault} (hbreaks : Breaks r e segments stop fault) (he : e ∈ r.items) :
    fault.OfPath := by
  induction hbreaks with
  | blank => exact .inl rfl
  | unknown => exact .inr (.inl ⟨_, rfl⟩)
  | inside => exact .inr (.inr ⟨_, _, rfl⟩)
  | target _ ha ht =>
    exact absurd (.target ht) (not_dangles_of_validate h he (Dict.get?_eq_some.mp ha) _)
  | reference _ ha ht htype =>
    exact absurd (.column ht (Entity.columnType?_eq_none.mp htype))
      (not_dangles_of_validate h he (Dict.get?_eq_some.mp ha) _)
  | later _ _ ht _ ih => exact ih (Keyed.mem_of_find? ht)

theorem resolve_of_breaks {name stop : String} {fault : PathFault} (hdot : '.' ∉ name.toList)
    (h : Breaks r e [name] stop fault) : resolve r e name = .error (.invalidPath name stop fault) :=
  resolve_eq_error.mpr ⟨stop, fault, (Text.pieces_of_not_mem hdot).symm ▸ h, rfl⟩

theorem dangles_of_validate {fault : SchemaFault} (h : validate r = .error (.invalidSchema fault))
    (hrelation : ∀ entity, fault ≠ .blankTable entity) :
    ∃ e, r.get e.name = .ok e ∧ ∃ entry ∈ e.attributes.entries, Dangles r e entry fault := by
  obtain ⟨e, he, fault', hfault, _, hsame⟩ := validate_eq_error.mp h
  cases hsame
  cases hfault with
  | table => exact absurd rfl (hrelation e.name)
  | relation _ hmem hdangles =>
    exact ⟨e, get_eq_ok.mpr (Keyed.find?_of_mem he), _, hmem, hdangles⟩

/-- Validation rules out dangling relations.  In a valid registry a path from a registered entity
fails for its own faults only.  When validation refuses a relation whose name is one segment of a
path, that path fails at the relation for the same reason.  And validation refuses the first
entity with a fault, in name order, for its first relation with one. -/
theorem validate_rules_out_dangling (r : Registry) :
    (validate r = .ok () → ∀ entity e path err, r.get entity = .ok e →
      resolve r e path = .error err →
        ∃ stop fault, err = .invalidPath path stop fault ∧ fault.OfPath) ∧
    (∀ entity name target,
      validate r = .error (.invalidSchema (.unknownTarget entity name target)) →
        Text.isBlank name = false → '.' ∉ name.toList → ∃ e, r.get entity = .ok e ∧
          resolve r e name = .error (.invalidPath name name (.unregisteredTarget target))) ∧
    (∀ entity name target column,
      validate r = .error (.invalidSchema (.unknownColumn entity name target column)) →
        Text.isBlank name = false → '.' ∉ name.toList → ∃ e, r.get entity = .ok e ∧
          resolve r e name = .error (.invalidPath name name (.undeclaredColumn target column))) ∧
    ∀ err, validate r = .error err ↔ ∃ e ∈ r.items, ∃ fault, Faulty r e fault ∧
      (∀ other ∈ r.items, other.name < e.name → ∀ fault, ¬ Faulty r other fault) ∧
        err = .invalidSchema fault := by
  refine ⟨?_, ?_, ?_, fun err => validate_eq_error⟩
  · intro hvalid entity e path err he herr
    obtain ⟨stop, fault, hbreaks, rfl⟩ := resolve_eq_error.mp herr
    have hmem := Keyed.mem_of_find? (get_eq_ok.mp he)
    exact ⟨stop, fault, rfl, ofPath_of_breaks hvalid hbreaks hmem⟩
  · intro entity name target h hblank hdot
    obtain ⟨e, he, entry, hmem, hdangles⟩ := dangles_of_validate h (fun _ => by simp)
    cases hdangles with
    | target ht =>
      exact ⟨e, he, resolve_of_breaks hdot (.target hblank (Dict.get?_eq_some.mpr hmem) ht)⟩
  · intro entity name target column h hblank hdot
    obtain ⟨e, he, entry, hmem, hdangles⟩ := dangles_of_validate h (fun _ => by simp)
    cases hdangles with
    | column ht hcolumn =>
      have htype := Entity.columnType?_eq_none.mpr hcolumn
      exact ⟨e, he,
        resolve_of_breaks hdot (.reference hblank (Dict.get?_eq_some.mpr hmem) ht htype)⟩

def orphaned : Registry :=
  Keyed.empty.insert
    ((Entity.bare "people" "people").withAttribute "firm" (.relation "firms" "firm_id" "id"))

theorem validate_rules_out_dangling_firm :
    validate orphaned = .error (.invalidSchema (.unknownTarget "people" "firm" "firms")) ∧
      ∃ e, orphaned.get "people" = .ok e ∧
        resolve orphaned e "firm" =
          .error (.invalidPath "firm" "firm" (.unregisteredTarget "firms")) := by
  have hrefused : validate orphaned =
      .error (.invalidSchema (.unknownTarget "people" "firm" "firms")) := by decide +kernel
  exact ⟨hrefused, (validate_rules_out_dangling orphaned).2.1 "people" "firm" "firms" hrefused
    (by decide) (by decide)⟩

end Registry
end TableSearch
