/-
Configurations that load.

Loading looks at seven conditions, one after the other: the profile is well formed, the file that
was asked for stands, the overlay is well formed, and the settings that result have no blank
location, a connection, a limit in its range and sound entities.  It fails with the first fault, so
what it loads satisfies all of them, and a later command cannot fail for a default limit that is out
of range or a relation that dangles: `load_consistent`.
-/
import TableSearch.Proofs.CommandLine.Refusal
import TableSearch.Proofs.Settings.Merging

namespace TableSearch

/-! ## Sound registries -/

namespace Registry

variable {r : Registry}

/-- Every entity has a table, and its relations lead to columns that registered entities declare. -/
structure Sound (r : Registry) : Prop where
  table : ∀ entity e, r.get entity = .ok e → Text.isBlank e.table = false
  relation : ∀ entity e, r.get entity = .ok e → ∀ name target column references,
    (name, .relation target column references) ∈ e.attributes.entries →
      ∃ t, r.get target = .ok t ∧ t.Declares references

theorem Sound.not_dangles (h : r.Sound) {e : Entity} (he : e ∈ r.items)
    {entry : String × Attribute} (hmem : entry ∈ e.attributes.entries) (fault : SchemaFault) :
    ¬ Dangles r e entry fault := by
  intro hdangles
  have hget : r.get e.name = .ok e := get_eq_ok.mpr (Keyed.find?_of_mem he)
  cases hdangles with
  | target ht =>
    obtain ⟨t, htarget, -⟩ := h.relation _ _ hget _ _ _ _ hmem
    rw [get_eq_ok, ht] at htarget
    cases htarget
  | column ht hcolumn =>
    obtain ⟨t, htarget, hdeclares⟩ := h.relation _ _ hget _ _ _ _ hmem
    rw [get_eq_ok, ht] at htarget
    cases htarget
    exact hcolumn hdeclares

theorem sound_of_validate (h : validate r = .ok ()) : r.Sound := by
  constructor
  · intro entity e he
    have hcheck := Success.forM_eq_ok.mp h e (Keyed.mem_of_find? (get_eq_ok.mp he))
    unfold checkEntity at hcheck
    split at hcheck
    · cases hcheck
    · next hblank => exact Bool.not_eq_true _ ▸ hblank
  · intro entity e he name target column references hmem
    have hfault := not_dangles_of_validate h (Keyed.mem_of_find? (get_eq_ok.mp he)) hmem
    cases ht : r.find? target with
    | none => exact absurd (.target ht) (hfault _)
    | some t =>
      refine ⟨t, get_eq_ok.mpr ht, ?_⟩
      by_contra hcolumn
      exact hfault _ (.column ht hcolumn)

/-- Validation accepts the sound registries. -/
theorem validate_eq_ok : validate r = .ok () ↔ r.Sound := by
  refine ⟨sound_of_validate, fun h => Success.forM_eq_ok.mpr fun e he => ?_⟩
  refine checkEntity_eq_ok.mpr fun fault hfault => ?_
  cases hfault with
  | table hblank =>
    rw [h.table e.name e (get_eq_ok.mpr (Keyed.find?_of_mem he))] at hblank
    cases hblank
  | relation _ hmem hdangles => exact h.not_dangles he hmem fault hdangles

end Registry

namespace Settings

/-! ## What loading looks at -/

/-- A file stands at a path, and reading it fails. -/
inductive Spoilt (t : FileTree) (p : Places) (path : String) : SettingsError → Prop where
  | unreadable {cause} (hthere : t.exists? p path = true) (hread : t.read p path = .error cause) :
      Spoilt t p path (.unreadable path cause)
  | malformed {content} (hthere : t.exists? p path = true) (hread : t.read p path = .ok content)
      (hjson : ∀ c, ConfigFile.ofJson content ≠ .ok c) : Spoilt t p path (.malformed path)

/-- The settings that the files of a run come to, before they are checked. -/
def resolved (t : FileTree) (p : Places) (o : Overrides) : Settings :=
  (ofLayers p o (mergeFiles (layers t p o).reverse)).1

inductive Condition where
  | profile
  | asked
  | overlay
  | url
  | connections
  | limit
  | entities

/-- The order in which loading looks at the conditions. -/
def Condition.all : List Condition :=
  [.profile, .asked, .overlay, .url, .connections, .limit, .entities]

/-- A condition does not hold of a run, and this error says so.  Of many entities at fault the
first is reported, in name order. -/
def Fault (t : FileTree) (p : Places) (o : Overrides) : Condition → SettingsError → Prop
  | .profile, err => ∃ path ∈ profilePath? p, Spoilt t p path err
  | .asked, err => ∃ path ∈ o.config, t.exists? p (Location.expand p path) = false ∧
      err = .noFile (Location.expand p path)
  | .overlay, err => Spoilt t p (overlayPlace p o) err
  | .url, err => (∃ url ∈ (resolved t p o).url, Text.isBlank url = true) ∧ err = .blankUrl
  | .connections, err => (resolved t p o).maxConnections = 0 ∧ err = .noConnections
  | .limit, err =>
      ¬ (1 ≤ (resolved t p o).defaultLimit.toNat ∧ (resolved t p o).defaultLimit.toNat ≤ 500) ∧
        err = .limitOutOfRange
  | .entities, err => ∃ e ∈ (resolved t p o).registry.items, ∃ fault,
      Registry.Faulty (resolved t p o).registry e fault ∧
      (∀ other ∈ (resolved t p o).registry.items, other.name < e.name →
        ∀ fault, ¬ Registry.Faulty (resolved t p o).registry other fault) ∧
      err = .invalidEntities (.invalidSchema fault)

structure Consistent (t : FileTree) (p : Places) (o : Overrides) : Prop where
  profile : ∀ path ∈ profilePath? p, WellFormed t p path
  asked : ∀ path, o.config = some path → t.exists? p (Location.expand p path) = true
  overlay : WellFormed t p (overlayPlace p o)
  url : ∀ url ∈ (resolved t p o).url, Text.isBlank url = false
  connections : 1 ≤ (resolved t p o).maxConnections.toNat
  limit : 1 ≤ (resolved t p o).defaultLimit.toNat ∧ (resolved t p o).defaultLimit.toNat ≤ 500
  entities : (resolved t p o).registry.Sound

/-! ## Checks -/

variable {t : FileTree} {p : Places} {o : Overrides} {s : Settings} {warnings : List Warning}
  {path : String} {err : SettingsError}

theorem readFile_eq_error (hthere : t.exists? p path = true) :
    readFile t p path = .error err ↔ Spoilt t p path err := by
  constructor
  · intro h
    unfold readFile at h
    split at h
    · next hread =>
      cases h
      exact .unreadable hthere hread
    · next hread =>
      split at h
      · cases h
      · next hjson =>
        cases h
        exact .malformed hthere hread (by simp [hjson])
  · intro h
    unfold readFile
    cases h with
    | unreadable _ hread => rw [hread]
    | malformed _ hread hbad =>
      rw [hread]
      dsimp only
      split
      · next hjson => exact absurd hjson (hbad _)
      · rfl

theorem not_spoilt_of_absent (habsent : t.exists? p path = false) : ¬ Spoilt t p path err := by
  rintro (⟨hthere, -⟩ | ⟨hthere, -, -⟩)
  · exact absurd hthere (by simp [habsent])
  · exact absurd hthere (by simp [habsent])

/-- A file that need not be there is read, or it is spoilt. -/
theorem readThere_eq_error :
    (if t.exists? p path then some <$> readFile t p path else .ok none) = .error err ↔
      Spoilt t p path err := by
  by_cases hthere : t.exists? p path = true
  · rw [if_pos hthere, ← readFile_eq_error hthere]
    exact Success.map_eq_error
  · rw [if_neg hthere]
    constructor
    · intro h
      cases h
    · intro h
      exact absurd h (not_spoilt_of_absent (by simpa using hthere))

/-- A well-formed file is one that is not spoilt. -/
theorem wellFormed_iff : WellFormed t p path ↔ ∀ err, ¬ Spoilt t p path err := by
  by_cases hthere : t.exists? p path = true
  · simp only [WellFormed, ← readFile_eq_error hthere, hthere, forall_const]
    unfold readFile fileAt
    cases t.read p path with
    | error cause => simp
    | ok content => cases hjson : ConfigFile.ofJson content <;> simp [hjson, Except.toOption]
  · have habsent : t.exists? p path = false := by simpa using hthere
    exact ⟨fun _ err => not_spoilt_of_absent habsent, fun _ h => absurd h hthere⟩

open Success (Checks)

theorem checks_profile : Checks (Fault t p o) (profile t p) [.profile] := by
  refine Success.checks_one fun err => ?_
  show _ ↔ ∃ path ∈ profilePath? p, Spoilt t p path err
  unfold profile
  cases profilePath? p with
  | none => simp
  | some path => simpa using readThere_eq_error

theorem checks_overlayFile : Checks (Fault t p o) (overlayFile t p o) [.asked, .overlay] := by
  intro err
  have hoverlay : Success.First (Fault t p o) [.overlay] err ↔
      Spoilt t p (overlayPlace p o) err := by
    simp [Success.first_cons, Success.not_first_nil, Fault]
  rw [Success.first_cons, hoverlay]
  cases hconfig : o.config with
  | none =>
    rw [overlayFile_of_none hconfig, readThere_eq_error]
    simp [Fault, overlayPlace, hconfig]
  | some path =>
    rw [overlayFile_of_config hconfig]
    by_cases hthere : t.exists? p (Location.expand p path) = true
    · have hread : some <$> readFile t p (Location.expand p path) = .error err ↔
          Spoilt t p (Location.expand p path) err :=
        Success.map_eq_error.trans (readFile_eq_error hthere)
      rw [if_pos hthere, hread]
      simp [Fault, overlayPlace, hconfig, hthere]
    · have hasked : ∀ other, Fault t p o .asked other ↔
          other = .noFile (Location.expand p path) := by
        intro other
        simp [Fault, hconfig, hthere]
      rw [if_neg hthere, hasked]
      simp [hasked, eq_comm]

/-- What is checked of settings. -/
theorem checks_resolved : Checks (Fault t p o) (resolved t p o).validate
    [.url, .connections, .limit, .entities] := by
  refine .ite ?_ (.ite (fun err => Iff.rfl) (.ite ?_ (Success.checks_one ?_)))
  · intro err
    rw [Option.any_eq_true]
    rfl
  · intro err
    have hrange : ∀ limit : UInt32, limit = 0 ∨ largestLimit < limit.toNat ↔
        ¬ (1 ≤ limit.toNat ∧ limit.toNat ≤ 500) := by
      intro limit
      rw [← UInt32.toNat_inj]
      show limit.toNat = 0 ∨ 500 < limit.toNat ↔ _
      omega
    rw [hrange]
    rfl
  · intro err
    rw [Success.mapError_eq_error]
    constructor
    · rintro ⟨cause, hcause, rfl⟩
      obtain ⟨e, he, fault, hfault, hfirst, rfl⟩ := Registry.validate_eq_error.mp hcause
      exact ⟨e, he, fault, hfault, hfirst, rfl⟩
    · rintro ⟨e, he, fault, hfault, hfirst, rfl⟩
      exact ⟨_, Registry.validate_eq_error.mpr ⟨e, he, fault, hfault, hfirst, rfl⟩, rfl⟩

theorem checks_load : Checks (Fault t p o) (load t p o) Condition.all := by
  have hload : Checks (Fault t p o) (load t p o)
      ([.profile] ++ ([.asked, .overlay] ++ ([.url, .connections, .limit, .entities] ++ []))) := by
    refine checks_profile.bind fun lower hlower => checks_overlayFile.bind fun upper hupper => ?_
    rw [files_eq hlower hupper]
    exact checks_resolved.bind fun _ _ => Success.checks_pure _
  exact hload

/-- A run without a fault is consistent. -/
theorem consistent_iff : Consistent t p o ↔ ∀ c ∈ Condition.all, ∀ err, ¬ Fault t p o c err := by
  constructor
  · intro h c _ err hfault
    cases c with
    | profile =>
      obtain ⟨path, hpath, hspoilt⟩ := hfault
      exact wellFormed_iff.mp (h.profile path hpath) err hspoilt
    | asked =>
      obtain ⟨path, hasked, habsent, -⟩ := hfault
      rw [h.asked path hasked] at habsent
      cases habsent
    | overlay => exact wellFormed_iff.mp h.overlay err hfault
    | url =>
      obtain ⟨⟨url, hurl, hblank⟩, -⟩ := hfault
      rw [h.url url hurl] at hblank
      cases hblank
    | connections =>
      have hsome := h.connections
      rw [hfault.1] at hsome
      exact absurd hsome (by decide)
    | limit => exact hfault.1 h.limit
    | entities =>
      obtain ⟨e, he, fault, hfault, -⟩ := hfault
      have hchecked := Success.forM_eq_ok.mp (Registry.validate_eq_ok.mpr h.entities) e he
      exact Registry.checkEntity_eq_ok.mp hchecked fault hfault
  · intro h
    have hnone : ∀ c err, ¬ Fault t p o c err := by
      intro c
      exact h c (by cases c <;> simp [Condition.all])
    refine ⟨fun path hpath => ?_, fun path hasked => ?_, ?_, fun url hurl => ?_, ?_, ?_, ?_⟩
    · exact wellFormed_iff.mpr fun err hspoilt => hnone .profile err ⟨path, hpath, hspoilt⟩
    · by_contra habsent
      exact hnone .asked _ ⟨path, hasked, by simpa using habsent, rfl⟩
    · exact wellFormed_iff.mpr (hnone .overlay)
    · by_contra hblank
      exact hnone .url _ ⟨⟨url, hurl, by simpa using hblank⟩, rfl⟩
    · by_contra hzero
      refine hnone .connections _ ⟨UInt32.toNat_inj.mp ?_, rfl⟩
      show (resolved t p o).maxConnections.toNat = 0
      omega
    · by_contra hrange
      exact hnone .limit _ ⟨hrange, rfl⟩
    · refine Registry.validate_eq_ok.mp (Success.eq_ok_iff.mpr fun err herr => ?_)
      obtain ⟨e, he, fault, hfault, hfirst, -⟩ := Registry.validate_eq_error.mp herr
      exact hnone .entities _ ⟨e, he, fault, hfault, hfirst, rfl⟩

theorem eq_resolved_of_load (h : load t p o = .ok (s, warnings)) : s = resolved t p o := by
  obtain ⟨-, -, -, hs, -⟩ := load_eq_ok h
  exact hs

/-! ## What commands can rely on -/

structure Serves (s : Settings) : Prop where
  /-- Page zero is refused, and before anything else. -/
  zero : ∀ connect search terms, (Command.page search terms 0 none).execute connect s =
    .error (.query (.invalidPage .page))
  /-- No other page is refused as a page when the limit is the default one. -/
  pages : ∀ (connect : Connector) search terms number err fault, connect.BlamesDriver →
    number ≠ 0 → (Command.page search terms number none).execute connect s = .error err →
      err.cause? ≠ some (.invalidPage fault)
  /-- No plan is refused for a relation of the registry. -/
  plans : ∀ name params sort err, Plan.make s.registry name params sort = .error err →
    ¬ err.Dangling

theorem Consistent.serves (h : Consistent t p o) : (resolved t p o).Serves where
  zero _ _ _ := rfl
  pages connect search terms number err fault hconnect hnumber hfails := by
    have hpage : (Command.page search terms number none).PageValid (resolved t p o) :=
      PageRequest.make_of_limit hnumber h.limit
    exact Command.ne_invalidPage_of_execute hconnect hpage hfails
  plans name params sort err hfails :=
    Plan.not_dangling_of_make (Registry.validate_eq_ok.mpr h.entities) hfails

/-- Loading succeeds on the consistent configurations, and else it fails with the first fault.
The settings that it looks at hold what wins among the files, and bind their entities.  What it
loads is these settings, which refuse page zero and no other page while the limit is the default
one, and plan nothing that fails for a relation that dangles. -/
theorem load_consistent (t : FileTree) (p : Places) (o : Overrides) :
    (Follows p (winning o (layers t p o)) (resolved t p o) ∧
      (resolved t p o).registry.Binds (definitions t p o)) ∧
    ((∃ s warnings, load t p o = .ok (s, warnings)) ↔ Consistent t p o) ∧
    (∀ err, load t p o = .error err ↔ Success.First (Fault t p o) Condition.all err) ∧
    ∀ s warnings, load t p o = .ok (s, warnings) → s = resolved t p o ∧ s.Serves := by
  have hconsistent : (∃ s warnings, load t p o = .ok (s, warnings)) ↔ Consistent t p o := by
    rw [consistent_iff, ← checks_load.ok_iff, Prod.exists]
  have hfollows := follows_ofLayers p o (layers t p o).reverse
  rw [List.reverse_reverse] at hfollows
  refine ⟨⟨hfollows, binds_ofLayers p o _⟩, hconsistent, checks_load, fun s warnings hload => ?_⟩
  have hs := eq_resolved_of_load hload
  exact ⟨hs, hs ▸ (hconsistent.mp ⟨s, warnings, hload⟩).serves⟩

def shelf : FileTree where
  entries :=
    [(["home", "ada", ".cquery", "cquery.json"], .text <|
        "\x7b\"entities\": [\x7b\"name\": \"staff\", \"table\": \"people\"\x7d], " ++
          "\"query\": \x7b\"default_limit\": 0\x7d\x7d"),
      (["work", "cquery.json"], .text "\x7b\"query\": \x7b\"default_limit\": 10\x7d\x7d")]

def ghostPage (number : UInt32) : Command :=
  .page ⟨"ghosts", []⟩ [] number none

theorem load_consistent_shelf :
    (∃ s warnings, load shelf ⟨some "/home/ada", "/work"⟩ ⟨none, none, none, none⟩ =
        .ok (s, warnings) ∧
      (ghostPage 0).execute (Pool.connect shelf ⟨none, "/work"⟩) s =
        .error (.query (.invalidPage .page)) ∧
      (∃ err, (ghostPage 1).execute (Pool.connect shelf ⟨none, "/work"⟩) s = .error err ∧
        err.cause? ≠ some (.invalidPage .page)) ∧
      ∃ err, Plan.make s.registry "staff" (Dict.set Keyed.empty "EQ_ghost" .null) .unsorted =
        .error err ∧ ¬ err.Dangling) ∧
    Success.First (Fault shelf ⟨some "/home/ada", "/tmp"⟩ ⟨none, none, none, none⟩) Condition.all
      .limitOutOfRange := by
  constructor
  · have hloaded : (load shelf ⟨some "/home/ada", "/work"⟩ ⟨none, none, none, none⟩).toOption.map
        (fun loaded => (loaded.1.registry, loaded.1.defaultLimit)) =
          some (Keyed.empty.insert (.bare "staff" "people"), 10) := by decide +kernel
    obtain ⟨⟨s, warnings⟩, hs, hvalues⟩ := Option.map_eq_some_iff.mp hloaded
    obtain ⟨hregistry, hlimit⟩ : s.registry = _ ∧ s.defaultLimit = _ := Prod.mk.inj hvalues
    have hload := Success.toOption_eq_some.mp hs
    have hserves := ((load_consistent shelf _ _).2.2.2 s warnings hload).2
    have hghosts : (ghostPage 1).execute (Pool.connect shelf ⟨none, "/work"⟩) s =
        .error (.query (.unknownEntity "ghosts")) := by
      refine Command.execute_unregistered rfl (PageRequest.make_of_limit (by decide) ?_) ?_
      · show 1 ≤ s.defaultLimit.toNat ∧ s.defaultLimit.toNat ≤ 500
        rw [hlimit]
        decide
      · rw [hregistry]
        rfl
    have hplan : (Plan.make s.registry "staff" (Dict.set Keyed.empty "EQ_ghost" .null)
        .unsorted).map (fun _ => ()) =
          .error (.invalidPath "ghost" "ghost" (.noAttribute "staff")) := by
      rw [hregistry]
      decide +kernel
    have hunplanned := Success.map_eq_error.mp hplan
    have hnoPage := hserves.pages (Pool.connect shelf ⟨none, "/work"⟩) _ _ 1 _ .page
      (Pool.connect_blamesDriver _ _) (by decide) hghosts
    exact ⟨s, warnings, hload, hserves.zero _ _ _, ⟨_, hghosts, hnoPage⟩, _, hunplanned,
      hserves.plans _ _ _ _ hunplanned⟩
  · have hout : (load shelf ⟨some "/home/ada", "/tmp"⟩ ⟨none, none, none, none⟩).map
        (fun _ => ()) = .error .limitOutOfRange := by decide +kernel
    exact ((load_consistent shelf _ _).2.2.1 _).mp (Success.map_eq_error.mp hout)

end Settings
end TableSearch
