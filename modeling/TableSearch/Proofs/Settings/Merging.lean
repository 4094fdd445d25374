/-
Entities that several files define.

Files are merged one entity at a time: the entity is put last, instead of an earlier one of its
name.  The list that is kept holds the last entity of each name, in the order of their places in
all that was defined so far, and one more entity keeps this so (`Merged.redefine`).  So the merged
list has each name once, registering it replaces nothing, and the registry binds each name to its
last definition: `entities_merge`.
-/
import TableSearch.Proofs.Settings.Saved

namespace TableSearch

/-! ## The last entity of a name -/

/-- An entity stands in a list with these after it, and none of them has its name. -/
def LastOf (entities : List Entity) (e : Entity) (after : List Entity) : Prop :=
  ∃ before, entities = before ++ e :: after ∧ ∀ d ∈ after, d.name ≠ e.name

variable {entities merged after : List Entity} {e d : Entity}

theorem not_lastOf_nil : ¬ LastOf [] e after := by
  rintro ⟨before, hsplit, -⟩
  cases before <;> cases hsplit

/-- One more entity is the last of its name, and takes this from no other name. -/
theorem lastOf_concat : LastOf (entities ++ [e]) d after ↔
    (d = e ∧ after = []) ∨
      ∃ between, after = between ++ [e] ∧ d.name ≠ e.name ∧ LastOf entities d between := by
  constructor
  · rintro ⟨before, hsplit, hlast⟩
    rcases List.eq_nil_or_concat' after with rfl | ⟨between, c, rfl⟩
    · obtain ⟨-, hsame⟩ := List.append_inj' hsplit rfl
      cases hsame
      exact .inl ⟨rfl, rfl⟩
    · have hsplit' : entities ++ [e] = (before ++ d :: between) ++ [c] := by
        rw [hsplit]
        simp
      obtain ⟨rfl, hsame⟩ := List.append_inj' hsplit' rfl
      cases hsame
      have hnames := List.forall_mem_append.mp hlast
      exact .inr ⟨between, rfl, (hnames.2 e List.mem_cons_self).symm, before, rfl, hnames.1⟩
  · rintro (⟨rfl, rfl⟩ | ⟨between, rfl, hname, before, rfl, hlast⟩)
    · exact ⟨entities, rfl, List.forall_mem_nil _⟩
    · refine ⟨before, by simp, List.forall_mem_append.mpr ⟨hlast, ?_⟩⟩
      exact List.forall_mem_singleton.mpr hname.symm

theorem exists_lastOf_iff : (∃ after, LastOf entities e after) ↔
    (Keyed.ofList entities : Registry).find? e.name = some e := by
  rw [Keyed.find?_ofList_eq_some]
  constructor
  · rintro ⟨after, before, hsplit, hlast⟩
    exact ⟨before, after, hsplit, rfl, hlast⟩
  · rintro ⟨before, after, hsplit, -, hlast⟩
    exact ⟨after, before, hsplit, hlast⟩

/-! ## Merged lists -/

/-- A list of what is left of entities when later ones replace earlier ones of their names. -/
structure Merged (entities merged : List Entity) : Prop where
  /-- It holds the last entity of each name, as it was defined there. -/
  last : ∀ e, e ∈ merged ↔ ∃ after, LastOf entities e after
  once : (merged.map Entity.name).Nodup
  /-- What stands before another was last defined before it. -/
  ordered : merged.Pairwise fun d e => ∃ after, LastOf entities d after ∧ e ∈ after

theorem merged_nil : Merged [] [] where
  last e := by simp [not_lastOf_nil]
  once := List.nodup_nil
  ordered := List.Pairwise.nil

/-- A list that holds the last entities in their order has each name once. -/
theorem nodup_of_ordered
    (h : merged.Pairwise fun d e => ∃ after, LastOf entities d after ∧ e ∈ after) :
    (merged.map Entity.name).Nodup := by
  refine List.pairwise_map.mpr (h.imp ?_)
  rintro d e ⟨after, ⟨-, -, hlast⟩, he⟩ hname
  exact hlast e he hname.symm

/-- One more entity. -/
theorem Merged.redefine (h : Merged entities merged) (e : Entity) :
    Merged (entities ++ [e]) (ConfigFile.redefine merged e) := by
  have hkept : ∀ d, d ∈ merged.filter (fun d => d.name != e.name) ↔
      d.name ≠ e.name ∧ ∃ after, LastOf entities d after := by
    intro d
    rw [List.mem_filter, h.last, bne_iff_ne, and_comm]
  have hordered : (ConfigFile.redefine merged e).Pairwise
      fun d c => ∃ after, LastOf (entities ++ [e]) d after ∧ c ∈ after := by
    refine List.pairwise_append.mpr ⟨?_, List.pairwise_singleton _ _, ?_⟩
    · refine (h.ordered.filter _).imp_of_mem ?_
      rintro d c hd - ⟨between, hlast, hc⟩
      have hname := ((hkept d).mp hd).1
      exact ⟨between ++ [e], lastOf_concat.mpr (.inr ⟨between, rfl, hname, hlast⟩),
        List.mem_append_left _ hc⟩
    · intro d hd c hc
      cases List.mem_singleton.mp hc
      obtain ⟨hname, between, hlast⟩ := (hkept d).mp hd
      exact ⟨between ++ [e], lastOf_concat.mpr (.inr ⟨between, rfl, hname, hlast⟩),
        List.mem_append_right _ List.mem_cons_self⟩
  refine ⟨fun d => ?_, nodup_of_ordered hordered, hordered⟩
  rw [ConfigFile.redefine, List.mem_append, hkept, List.mem_singleton]
  simp only [lastOf_concat]
  constructor
  · rintro (⟨hname, between, hlast⟩ | rfl)
    · exact ⟨between ++ [e], .inr ⟨between, rfl, hname, hlast⟩⟩
    · exact ⟨[], .inl ⟨rfl, rfl⟩⟩
  · rintro ⟨after, ⟨rfl, -⟩ | ⟨between, -, hname, hlast⟩⟩
    · exact .inr rfl
    · exact .inl ⟨hname, between, hlast⟩

/-- A list of more entities, one after the other. -/
theorem Merged.mergeEntities (h : Merged entities merged) (later : List Entity) :
    Merged (entities ++ later) (ConfigFile.mergeEntities merged later) := by
  induction later generalizing entities merged with
  | nil => rwa [List.append_nil]
  | cons e rest ih =>
    have hnext := ih (h.redefine e)
    rwa [List.append_assoc] at hnext

theorem Merged.overlay {earlier : ConfigFile} (h : Merged entities earlier.defined)
    (later : ConfigFile) : Merged (entities ++ later.defined) (earlier.overlay later).defined := by
  cases hlater : later.entities with
  | some defined =>
    rw [ConfigFile.defined, ConfigFile.defined, ConfigFile.overlay, hlater]
    exact h.mergeEntities defined
  | none =>
    rw [ConfigFile.defined, ConfigFile.defined, ConfigFile.overlay, hlater]
    show Merged (entities ++ []) earlier.defined
    rwa [List.append_nil]

theorem Merged.foldl_overlay {c : ConfigFile} (h : Merged entities c.defined)
    (files : List ConfigFile) :
    Merged (entities ++ files.flatMap ConfigFile.defined)
      (files.foldl ConfigFile.overlay c).defined := by
  induction files generalizing entities c with
  | nil => rwa [List.flatMap_nil, List.append_nil]
  | cons file rest ih =>
    rw [List.flatMap_cons, ← List.append_assoc]
    exact ih (h.overlay file)

/-- Files over each other keep the last entity of each name. -/
theorem merged_mergeFiles (files : List ConfigFile) :
    Merged (files.flatMap ConfigFile.defined) (Settings.mergeFiles files).defined :=
  merged_nil.foldl_overlay (c := .blank) files

/-- A list with each name once is registered without a warning. -/
theorem Merged.warnings (h : Merged entities merged) : (Registry.load merged).2 = [] :=
  Registry.registerAll_warnings (fun _ _ => rfl) (List.pairwise_map.mp h.once)

/-! ## Runs -/

/-- A registry binds each name of a list to the last entity of this name, and no other name. -/
structure Registry.Binds (r : Registry) (entities : List Entity) : Prop where
  names : ∀ name, r.contains name = true ↔ name ∈ entities.map Entity.name
  last : ∀ name e, r.get name = .ok e ↔ e.name = name ∧ ∃ after, LastOf entities e after

theorem Registry.binds_ofList (entities : List Entity) :
    Registry.Binds (Keyed.ofList entities) entities where
  names name := by rw [Keyed.contains_ofList, List.mem_map]
  last name e := by
    rw [Registry.get_eq_ok, exists_lastOf_iff]
    constructor
    · intro h
      have hname : e.name = name := Keyed.key_of_find? h
      exact ⟨hname, hname ▸ h⟩
    · rintro ⟨rfl, h⟩
      exact h

namespace Settings

open ConfigFile (defined)

variable {t : FileTree} {p : Places} {o : Overrides} {s : Settings} {warnings : List Warning}

/-- The warnings of files are about their fields. -/
theorem replacedEntity_not_mem (files : List ConfigFile) (name : String) :
    .replacedEntity name ∉ fileWarnings files := by
  intro h
  obtain ⟨c, -, hc⟩ := List.mem_flatMap.mp h
  unfold ConfigFile.warnings at hc
  split at hc
  · cases hc
  · cases List.mem_singleton.mp hc

def definitions (t : FileTree) (p : Places) (o : Overrides) : List Entity :=
  (layers t p o).reverse.flatMap defined

/-- A run warns of what its files and their entities warn of. -/
theorem warnings_of_load (h : load t p o = .ok (s, warnings)) :
    ∃ files, warnings = fileWarnings files ++ (ofLayers p o (mergeFiles files)).2 := by
  obtain ⟨lower, _, h⟩ := Success.bind_eq_ok.mp h
  obtain ⟨upper, _, h⟩ := Success.bind_eq_ok.mp h
  obtain ⟨_, _, h⟩ := Success.bind_eq_ok.mp h
  cases h
  exact ⟨_, rfl⟩

theorem binds_ofLayers (p : Places) (o : Overrides) (files : List ConfigFile) :
    (ofLayers p o (mergeFiles files)).1.registry.Binds (files.flatMap defined) := by
  show Registry.Binds (Registry.load (mergeFiles files).defined).1 _
  rw [Registry.load_eq_ofList, mergeFiles, ConfigFile.ofList_foldl_overlay]
  exact Registry.binds_ofList _

/-- Entities are merged by name, and none is lost or repeated.  Whatever the files define, in any
order and with any names repeated, what is kept of them is the last entity of each name, whole and
in the order of these last places; the registry binds each name to that entity and no other name,
and no entity is registered in the place of another.  A run that loads binds what its profile and
its overlay define, one after the other, and never warns of a replaced entity. -/
theorem entities_merge :
    (∀ files : List ConfigFile, Merged (files.flatMap defined) (mergeFiles files).defined ∧
      ∀ p o, (ofLayers p o (mergeFiles files)).1.registry.Binds (files.flatMap defined) ∧
        (ofLayers p o (mergeFiles files)).2 = []) ∧
    ∀ t p o s warnings, load t p o = .ok (s, warnings) →
      s.registry.Binds (definitions t p o) ∧ ∀ name, .replacedEntity name ∉ warnings := by
  have hsilent : ∀ p o (files : List ConfigFile), (ofLayers p o (mergeFiles files)).2 = [] :=
    fun p o files => (merged_mergeFiles files).warnings
  refine ⟨fun files => ⟨merged_mergeFiles files, fun p o => ⟨binds_ofLayers p o files,
    hsilent p o files⟩⟩, fun t p o s warnings hload => ⟨?_, fun name => ?_⟩⟩
  · obtain ⟨_, _, _, rfl, _⟩ := load_eq_ok hload
    exact binds_ofLayers p o _
  · obtain ⟨files, rfl⟩ := warnings_of_load hload
    rw [hsilent, List.append_nil]
    exact replacedEntity_not_mem files name

def drafts : FileTree where
  entries :=
    [(["home", "ada", ".cquery", "cquery.json"], .text <|
        "\x7b\"entities\": [\x7b\"name\": \"staff\", \"table\": \"people\"\x7d, " ++
          "\x7b\"name\": \"desks\", \"table\": \"desks\"\x7d, " ++
          "\x7b\"name\": \"staff\", \"table\": \"staff\"\x7d]\x7d"),
      (["work", "cquery.json"], .text
        "\x7b\"entities\": [\x7b\"name\": \"desks\", \"table\": \"tables\"\x7d]\x7d")]

theorem entities_merge_drafts : ∃ s warnings,
    load drafts ⟨some "/home/ada", "/work"⟩ ⟨none, none, none, none⟩ = .ok (s, warnings) ∧
    s.registry.get "staff" = .ok (.bare "staff" "staff") ∧
    s.registry.get "desks" = .ok (.bare "desks" "tables") ∧
    s.registry.contains "people" = false ∧ .replacedEntity "staff" ∉ warnings := by
  have hdefined : definitions drafts ⟨some "/home/ada", "/work"⟩ ⟨none, none, none, none⟩ =
      [.bare "staff" "people", .bare "desks" "desks", .bare "staff" "staff",
        .bare "desks" "tables"] := by decide +kernel
  have hsome : (load drafts ⟨some "/home/ada", "/work"⟩
      ⟨none, none, none, none⟩).toOption.isSome = true := by decide +kernel
  obtain ⟨⟨s, warnings⟩, hs⟩ := Option.isSome_iff_exists.mp hsome
  have hload := Success.toOption_eq_some.mp hs
  obtain ⟨hbinds, hsilent⟩ := entities_merge.2 _ _ _ _ _ hload
  rw [hdefined] at hbinds
  refine ⟨s, warnings, hload, (hbinds.last _ _).mpr ⟨rfl, [.bare "desks" "tables"], ?_⟩,
    (hbinds.last _ _).mpr ⟨rfl, [], ?_⟩, ?_, hsilent "staff"⟩
  · exact ⟨[.bare "staff" "people", .bare "desks" "desks"], rfl, by decide⟩
  · exact ⟨[.bare "staff" "people", .bare "desks" "desks", .bare "staff" "staff"], rfl,
      List.forall_mem_nil _⟩
  · rw [← Bool.not_eq_true, hbinds.names]
    decide

end Settings
end TableSearch
