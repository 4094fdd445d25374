/-
Registries that are saved in configuration files.

The entities of the files of a run are registered one by one, from the lowest file to the highest
(`registry_of_load`).  So a file with all entities of a registry brings the registry back, over
files that define no other names.  What the program prints for the entities is read as all of them,
and may be put in a file as it stands: `survives_json`.
-/
import TableSearch.CommandLine.Program
import TableSearch.Proofs.Schema.Encoding
import TableSearch.Proofs.Settings.Layering
import TableSearch.Proofs.Text.ByteOrder

namespace TableSearch

open Json (Node Parsed Fields Token)

/-! ## Entities of files over each other -/

namespace ConfigFile

def defined (c : ConfigFile) : List Entity :=
  c.entities.getD []

/-- An entity that is put last is registered instead of those of its name. -/
theorem ofList_redefine (entities : List Entity) (e : Entity) :
    (Keyed.ofList (redefine entities e) : Registry) = Keyed.ofList (entities ++ [e]) := by
  refine Keyed.ext_find? fun k => ?_
  rw [Keyed.find?_ofList, Keyed.find?_ofList, redefine, List.reverse_append, List.reverse_append,
    List.find?_append, List.find?_append]
  by_cases hk : e.name = k
  · simp [hk]
  · have hkept : (fun d : Entity => decide ((d.name != e.name) = true ∧ (d.name == k) = true)) =
        fun d => d.name == k := by
      funext d
      by_cases hd : d.name = k
      · simp [hd, Ne.symm hk]
      · simp [hd]
    rw [← List.filter_reverse, List.find?_filter, hkept]

theorem ofList_mergeEntities (earlier later : List Entity) :
    (Keyed.ofList (mergeEntities earlier later) : Registry) = Keyed.ofList (earlier ++ later) := by
  induction later generalizing earlier with
  | nil => exact congrArg Keyed.ofList (List.append_nil earlier).symm
  | cons e rest ih =>
    show Keyed.ofList (mergeEntities (redefine earlier e) rest) = _
    rw [ih, Keyed.ofList_append, ofList_redefine, ← Keyed.ofList_append, List.append_assoc]
    rfl

/-- Lists that share no names are put after each other. -/
theorem mergeEntities_of_distinct {earlier later : List Entity}
    (h : (earlier ++ later).Pairwise fun a b => a.name ≠ b.name) :
    mergeEntities earlier later = earlier ++ later := by
  induction later generalizing earlier with
  | nil => exact (List.append_nil earlier).symm
  | cons e rest ih =>
    have hsplit : earlier ++ e :: rest = (earlier ++ [e]) ++ rest := by simp
    have hkept : redefine earlier e = earlier ++ [e] := by
      have hnames := (List.pairwise_append.mp h).2.2
      rw [redefine, List.filter_eq_self.mpr]
      intro d hd
      simpa using hnames d hd e List.mem_cons_self
    show mergeEntities (redefine earlier e) rest = _
    rw [hkept, hsplit]
    rw [hsplit] at h
    exact ih h

theorem ofList_overlay (earlier later : ConfigFile) :
    (Keyed.ofList (earlier.overlay later).defined : Registry) =
      Keyed.ofList (earlier.defined ++ later.defined) := by
  cases hlater : later.entities with
  | some entities =>
    rw [defined, defined, defined, overlay, hlater]
    exact ofList_mergeEntities _ _
  | none =>
    rw [defined, defined, defined, overlay, hlater]
    exact congrArg Keyed.ofList (List.append_nil _).symm

theorem ofList_foldl_overlay (files : List ConfigFile) (c : ConfigFile) :
    (Keyed.ofList (files.foldl overlay c).defined : Registry) =
      Keyed.ofList (c.defined ++ files.flatMap defined) := by
  induction files generalizing c with
  | nil =>
    rw [List.flatMap_nil, List.append_nil]
    rfl
  | cons file rest ih =>
    rw [List.foldl_cons, ih, Keyed.ofList_append, ofList_overlay, ← Keyed.ofList_append,
      List.flatMap_cons, List.append_assoc]

/-! ## Files with printed entities -/

variable {r : Registry} {c : ConfigFile} {text content : String}

/-- A text is an object with the tree of another text as its entities. -/
def Carries (text content : String) : Prop :=
  ∃ entries tree, Parsed.ofText? content = some (.object entries) ∧
    (some "entities", tree) ∈ entries ∧ Parsed.ofText? text = some tree

/-- A file that is read and has printed entities has these entities. -/
theorem entities_of_carries (h : Carries r.toNode.printed content)
    (hread : ofJson content = .ok c) : c.entities = some r.items := by
  obtain ⟨entries, tree, hcontent, hmem, htree⟩ := h
  rw [ofJson, Json.decodeText, hcontent] at hread
  obtain ⟨fs, hfields, hrest⟩ := Success.bind_eq_ok.mp hread
  clear hread
  obtain ⟨named, rfl, rfl⟩ := Fields.ofEntries_eq_ok hfields
  obtain ⟨unknown, _, hrest⟩ := Success.bind_eq_ok.mp hrest
  obtain ⟨database, _, hrest⟩ := Success.bind_eq_ok.mp hrest
  obtain ⟨query, _, hrest⟩ := Success.bind_eq_ok.mp hrest
  obtain ⟨entities, hentities, hrest⟩ := Success.bind_eq_ok.mp hrest
  cases hrest
  have hnamed : ("entities", tree) ∈ named := by simpa using hmem
  have hdecoded := Fields.optional_eq_ok hnamed hentities
  rw [Json.ofText?_printed] at htree
  cases htree
  have hitems : Registry.entitiesOfParsed (r.toNode.seen 0) = .ok r.items :=
    Registry.entitiesOfParsed_seen r.items (by decide)
  have hnullable : Json.Decode.nullable Registry.entitiesOfParsed (r.toNode.seen 0) =
      some <$> Registry.entitiesOfParsed (r.toNode.seen 0) := rfl
  rw [hnullable, hitems] at hdecoded
  cases hdecoded
  rfl

def plain (text : String) : String :=
  "\x7b\"entities\": " ++ text ++ "\x7d"

theorem ofText?_plain (n : Node) :
    Parsed.ofText? (plain n.printed) = some ((Node.object [("entities", n)]).seen 0) := by
  refine Json.ofText?_of_tokens ?_
  have hchars : (plain n.printed).toList =
      '\x7b' :: (Json.quotedChars "entities" ++ ':' :: ' ' :: (n.printed.toList ++ ['\x7d'])) := by
    simp [plain, Json.quotedChars, Json.escapeChar]
  rw [hchars, Token.all?_first (t := .openObject) rfl,
    Token.all?_first (Token.first?_quotedChars "entities" _), Token.all?_first (t := .colon) rfl,
    Token.all?_space rfl, n.all?_printed, Token.all?_first (t := .closeObject) rfl]
  simp [Token.all?, Node.tokens, Node.entryTokens]

theorem ofJson_plain (r : Registry) :
    ofJson (plain r.toNode.printed) = .ok { blank with entities := some r.items } := by
  have hitems : Registry.entitiesOfParsed (r.toNode.seen 1) = .ok r.items :=
    Registry.entitiesOfParsed_seen r.items (by decide)
  rw [ofJson, Json.decodeText, ofText?_plain]
  show (some <$> Registry.entitiesOfParsed (r.toNode.seen 1) >>= fun entities => pure _) = _
  rw [hitems]
  rfl

end ConfigFile

/-! ## Runs -/

namespace Settings

open ConfigFile (Carries defined plain)

variable {t : FileTree} {p : Places} {o : Overrides} {s : Settings} {warnings : List Warning}
  {r : Registry} {text content path : String} {files : List ConfigFile}

theorem validate_registry (h : s.validate = .ok ()) : s.registry.validate = .ok () := by
  unfold validate at h
  split at h
  · cases h
  · split at h
    · cases h
    · split at h
      · cases h
      · exact Success.mapError_eq_ok.mp h

/-- A run registers the entities of its files one by one, those of the highest file last. -/
theorem registry_of_load (h : load t p o = .ok (s, warnings)) :
    s.registry = Keyed.ofList ((layers t p o).reverse.flatMap defined) := by
  obtain ⟨_, _, _, rfl, _⟩ := load_eq_ok h
  show (Registry.load (mergeFiles (layers t p o).reverse).defined).1 = _
  rw [Registry.load_eq_ofList, mergeFiles, ConfigFile.ofList_foldl_overlay]
  rfl

theorem contains_of_load (h : load t p o = .ok (s, warnings)) :
    ∀ file ∈ layers t p o, ∀ e ∈ file.defined, s.registry.contains e.name = true := by
  intro file hfile e he
  rw [registry_of_load h, Keyed.contains_ofList]
  exact ⟨e, List.mem_flatMap.mpr ⟨file, List.mem_reverse.mpr hfile, he⟩, rfl⟩

/-- Among files, the highest first, the first that has entities was read from a text that carries
another one, and those below it define no names that are not in the registry. -/
def Restores (text : String) (r : Registry) (files : List ConfigFile) : Prop :=
  ∃ above file content below, files = above ++ file :: below ∧
    (∀ other ∈ above, other.entities = none) ∧
    ConfigFile.ofJson content = .ok file ∧ Carries text content ∧
    ∀ other ∈ below, ∀ e ∈ other.defined, r.contains e.name = true

theorem Restores.ofList (h : Restores r.toNode.printed r files) :
    Keyed.ofList (files.reverse.flatMap defined) = r := by
  obtain ⟨above, file, content, below, rfl, habove, hread, hcarries, hbelow⟩ := h
  have hnothing : above.reverse.flatMap defined = [] := by
    rw [List.flatMap_eq_nil_iff]
    intro other hother
    rw [defined, habove other (List.mem_reverse.mp hother)]
    rfl
  have hitems : file.defined = r.items := by
    rw [defined, ConfigFile.entities_of_carries hcarries hread]
    rfl
  rw [List.reverse_append, List.reverse_cons, List.flatMap_append, List.flatMap_append, hnothing,
    List.flatMap_singleton, hitems, List.append_nil]
  refine Keyed.ofList_append_items fun e he => ?_
  obtain ⟨other, hother, he⟩ := List.mem_flatMap.mp he
  exact hbelow other (List.mem_reverse.mp hother) e he

/-- A run restores a registry that stands printed in the highest of its files. -/
theorem registry_of_restores (hload : load t p o = .ok (s, warnings))
    (h : Restores r.toNode.printed r (layers t p o)) : s.registry = r := by
  rw [registry_of_load hload, h.ofList]

def ofRegistry (r : Registry) : Settings where
  backend := .sqlite
  url := none
  maxConnections := defaultMaxConnections
  defaultLimit := TableSearch.defaultLimit
  registry := r

/-- A file of printed entities loads, when they are valid, without a warning. -/
theorem load_plain (hvalid : r.validate = .ok ())
    (hprofile : ∀ place ∈ profilePath? p, t.exists? p place = false)
    (hfile : t.find? p (Location.expand p path) = some (.text (plain r.toNode.printed))) :
    load t p ⟨some path, none, none, none⟩ = .ok (ofRegistry r, []) := by
  have hlower : profile t p = .ok none := by
    unfold profile
    cases hplace : profilePath? p with
    | none => rfl
    | some place =>
      dsimp only
      rw [hprofile place hplace]
      rfl
  have hupper : overlayFile t p ⟨some path, none, none, none⟩ =
      .ok (some { ConfigFile.blank with entities := some r.items }) := by
    have hread : readFile t p (Location.expand p path) =
        .ok { ConfigFile.blank with entities := some r.items } := by
      rw [readFile, FileTree.read, hfile]
      dsimp only
      rw [ConfigFile.ofJson_plain]
    rw [overlayFile_of_config rfl, FileTree.exists?, hfile, hread]
    rfl
  have hmerged : mergeFiles [{ ConfigFile.blank with entities := some r.items }] =
      { ConfigFile.blank with entities := some r.items } := by
    have hentities : ConfigFile.mergeEntities [] r.items = r.items :=
      ConfigFile.mergeEntities_of_distinct r.names_distinct
    show { ConfigFile.blank with entities := some (ConfigFile.mergeEntities [] r.items) } = _
    rw [hentities]
  have hlayers : ofLayers p ⟨some path, none, none, none⟩
      { ConfigFile.blank with entities := some r.items } = (ofRegistry r, []) := by
    show (({ registry := (Registry.load r.items).1, .. } : Settings), (Registry.load r.items).2) = _
    rw [Registry.load_items]
    rfl
  have hchecked : (ofRegistry r).validate = .ok () := by
    show r.validate.mapError SettingsError.invalidEntities = _
    rw [hvalid]
    rfl
  have hwarnings : fileWarnings [{ ConfigFile.blank with entities := some r.items }] = [] := rfl
  rw [load, hlower, hupper]
  dsimp only [bind, Except.bind, Option.toList, List.nil_append]
  rw [hmerged, hlayers, hwarnings]
  dsimp only
  rw [hchecked]
  rfl

/-- Files with a text as their entities load to a registry, where the text was printed in a run. -/
structure Reloads (t : FileTree) (p : Places) (text : String) (r : Registry) : Prop where
  /-- In any run where such a file is the highest with entities, over no other names. -/
  restored : ∀ t' p' o s warnings, load t' p' o = .ok (s, warnings) →
    Restores text r (layers t' p' o) → s.registry = r
  /-- As the file that is asked for, over the profile of the run. -/
  overlay : ∀ t' o path content s warnings, o.config = some path →
    t'.read p (Location.expand p path) = .ok content → Carries text content →
    (∀ place ∈ profilePath? p, t'.find? p place = t.find? p place) →
    load t' p o = .ok (s, warnings) → s.registry = r
  /-- Alone, and then nothing fails. -/
  alone : ∀ t' p' path, (∀ place ∈ profilePath? p', t'.exists? p' place = false) →
    t'.find? p' (Location.expand p' path) = some (.text (plain text)) →
    load t' p' ⟨some path, none, none, none⟩ = .ok (ofRegistry r, [])

theorem reloads_of_load (h : load t p o = .ok (s, warnings)) :
    Reloads t p s.registry.toNode.printed s.registry where
  restored _ _ _ _ _ hload hrestores := registry_of_restores hload hrestores
  overlay t' o' path content s' warnings' hconfig hread hcarries hprofile hload := by
    have hplace : overlayPlace p o' = Location.expand p path := by rw [overlayPlace, hconfig]
    obtain ⟨_, _, hgiven, _, _⟩ := load_eq_ok hload
    obtain ⟨file, hfile⟩ := Option.isSome_iff_exists.mp (hgiven (by rw [hconfig]; rfl))
    have hjson : ConfigFile.ofJson content = .ok file := by
      rw [hplace, fileAt, hread] at hfile
      exact Success.toOption_eq_some.mp hfile
    refine registry_of_restores hload ⟨[], file, content,
      ((profilePath? p).bind (fileAt t' p)).toList, ?_, List.forall_mem_nil _, hjson, hcarries, ?_⟩
    · rw [layers, hfile]
      rfl
    · intro other hother
      refine contains_of_load h other (List.mem_append_right _ ?_)
      cases hpath : profilePath? p with
      | none =>
        rw [hpath] at hother
        cases hother
      | some place =>
        have hsame : fileAt t' p place = fileAt t p place := by
          rw [fileAt, fileAt, FileTree.read, FileTree.read, hprofile place hpath]
        rw [hpath, Option.bind_some, hsame] at hother
        exact hother
  alone _ _ _ hprofile hfile := by
    obtain ⟨_, _, _, _, hvalid⟩ := load_eq_ok h
    exact load_plain (validate_registry hvalid) hprofile hfile

end Settings

/-- The command for the entities prints those of the settings. -/
theorem Program.run_entities {w : Surroundings} {i : Invocation} {s : Settings}
    {warnings : List Warning} (hparse : Invocation.parse w.fullEnvironment w.words = .ok i)
    (hcommand : i.command = .entities)
    (hload : Settings.load w.files w.places i.overrides = .ok (s, warnings)) :
    run w = .printed s.registry.toNode.printed warnings := by
  have hexecute : i.execute w.files w.places = .ok (s.registry.toNode, warnings) := by
    rw [Invocation.execute, hload, hcommand]
    rfl
  rw [run, hparse]
  dsimp only
  rw [hexecute]
  rfl

namespace Registry

structure Kept (r : Registry) : Prop where
  /-- An entity is found under its own name and under no other. -/
  own : ∀ name e, r.get name = .ok e ↔ e ∈ r.items ∧ e.name = name
  /-- The text is an array of the entities. -/
  array : ∃ trees, Parsed.ofText? r.toJson = some (.array trees) ∧
    List.Forall₂ (fun tree e => Entity.ofParsed tree = .ok e) trees r.items
  /-- The entities are in the order of the bytes of their names. -/
  ordered : r.items.Pairwise fun a b => Utf8.encode a.name.toList < Utf8.encode b.name.toList
  read : Json.decodeText ofParsed r.toJson = .ok (r, [])

structure Loads (entities : List Entity) : Prop where
  one_by_one : (load entities).1 = entities.foldl register Keyed.empty
  /-- Of all entities of a name the last one is found. -/
  last : ∀ name e, (load entities).1.get name = .ok e ↔ ∃ before after,
    entities = before ++ e :: after ∧ e.name = name ∧ ∀ other ∈ after, other.name ≠ name
  read : Json.decodeText ofParsed (Node.array (entities.map Entity.toNode)).compact =
    .ok (load entities)
  again : Json.decodeText ofParsed (load entities).1.toJson = .ok ((load entities).1, [])

theorem kept (r : Registry) : r.Kept where
  own _ _ := get_eq_ok_iff
  array := r.ofText?_toJson
  ordered := r.increasing.imp Utf8.encode_lt_iff.mpr
  read := r.decodeText_toJson

theorem loads (entities : List Entity) : Loads entities where
  one_by_one := load_registry entities
  last _ _ := get_load_eq_ok
  read := decodeText_entities (Json.ofText?_compact _)
  again := decodeText_toJson _

/-- A registry survives its JSON form.  Whatever steps make it, it holds every entity under its
own name, and its text is an array of the entities in the order of their names, which is read as
the same registry.  Loading a list registers its entities one by one, from a list or from its text,
and loading what was written gives the same again.  A run of the program prints the entities of
its settings, and a file with this text as its entities loads to the same registry. -/
theorem survives_json (steps : List Step) (entities : List Entity) :
    Backs (steps.foldl Step.write Keyed.empty) (steps.foldl Step.apply Keyed.empty) ∧
    Kept (steps.foldl Step.apply Keyed.empty) ∧ Loads entities ∧
    ∀ (w : Surroundings) (i : Invocation) (s : Settings) (warnings : List Warning),
      Invocation.parse w.fullEnvironment w.words = .ok i → i.command = .entities →
      Settings.load w.files w.places i.overrides = .ok (s, warnings) →
      ∃ text, Program.run w = .printed text warnings ∧
        Settings.Reloads w.files w.places text s.registry := by
  refine ⟨backs_empty.foldl_write steps, kept _, loads entities, ?_⟩
  intro w i s warnings hparse hcommand hload
  exact ⟨_, Program.run_entities hparse hcommand hload, Settings.reloads_of_load hload⟩

def office : FileTree where
  entries :=
    [(["home", "ada", ".cquery", "cquery.json"], .text
        "\x7b\"entities\": [\x7b\"name\": \"staff\", \"table\": \"people\"\x7d]\x7d"),
      (["work", "cquery.json"], .text <|
        "\x7b\"entities\": [\x7b\"name\": \"staff\", \"table\": \"staff\", " ++
          "\"attributes\": \x7b\"id\": \x7b\"kind\": \"column\", \"column\": \"id\", " ++
          "\"type\": \"text\"\x7d\x7d\x7d, \x7b\"name\": \"désks\", \"table\": \"desks\"\x7d]\x7d")]

/-- What the command for the entities prints there is saved, and loaded elsewhere. -/
theorem survives_json_office : ∃ r text,
    Program.run ⟨⟨some "/home/ada", "/work"⟩, office, Keyed.empty, ["entities"]⟩ =
      .printed text [] ∧
    r.keys = ["désks", "staff"] ∧
    Settings.load (FileTree.empty.add "/tmp/saved.json" (.text (ConfigFile.plain text)))
      ⟨none, "/tmp"⟩ ⟨some "saved.json", none, none, none⟩ = .ok (Settings.ofRegistry r, []) := by
  have hloaded : (Settings.load office ⟨some "/home/ada", "/work"⟩
      ⟨none, none, none, none⟩).toOption.map (fun loaded => (loaded.1.registry.keys, loaded.2)) =
        some (["désks", "staff"], []) := by decide +kernel
  have hparsed : (Invocation.parse Keyed.empty ["entities"]).toOption.map
      (fun i => (i.overrides, i.command.name)) = some (⟨none, none, none, none⟩, .entities) := by
    decide +kernel
  obtain ⟨⟨s, warnings⟩, hload, hkeys⟩ := Option.map_eq_some_iff.mp hloaded
  obtain ⟨hkeys, rfl⟩ := Prod.mk.inj hkeys
  obtain ⟨⟨overrides, command⟩, hparse, hcommand⟩ := Option.map_eq_some_iff.mp hparsed
  obtain ⟨rfl, hname⟩ := Prod.mk.inj hcommand
  have hcommand : command = .entities := by
    cases command with
    | entities => rfl
    | _ => cases hname
  obtain ⟨_, _, _, hprinted⟩ := survives_json [] []
  obtain ⟨text, hrun, hreloads⟩ :=
    hprinted ⟨⟨some "/home/ada", "/work"⟩, office, Keyed.empty, ["entities"]⟩ ⟨_, command⟩ s []
      (Success.toOption_eq_some.mp hparse) hcommand (Success.toOption_eq_some.mp hload)
  exact ⟨s.registry, text, hrun, hkeys, hreloads.alone _ _ _ (fun _ h => by cases h) rfl⟩

end Registry
end TableSearch
