/-
The layers of the settings.

A setting is what the last layer says that has it: the command line, then the overlay, which is
the file asked for or else the one in the current directory, then the profile, and at last the
default.  Every field is layered alone, so a section that lacks a field hides nothing, and the
backend that no layer names is the one of the location that won: `load_layered`.
-/
import TableSearch.Proofs.Success
import TableSearch.Settings.Layers

namespace TableSearch

/-! ## Files over each other -/

namespace ConfigFile

variable {α β : Type}

def ofDatabase (field : DatabaseSection → Option α) (c : ConfigFile) : Option α :=
  c.database.bind field

def ofQuery (field : QuerySection → Option α) (c : ConfigFile) : Option α :=
  c.query.bind field

theorem bind_combine {f : α → α → α} {field : α → Option β}
    (hfield : ∀ a b, field (f a b) = (field b <|> field a)) (x y : Option α) :
    (combine f x y).bind field = (y.bind field <|> x.bind field) := by
  cases x with
  | none => cases y <;> simp [combine]
  | some a =>
    cases y with
    | none => simp [combine]
    | some b => exact hfield a b

/-- A section that lacks a field leaves the field of the earlier file. -/
theorem ofDatabase_overlay {field : DatabaseSection → Option α}
    (hfield : ∀ a b, field (a.overlay b) = (field b <|> field a)) (earlier later : ConfigFile) :
    ofDatabase field (earlier.overlay later) =
      (ofDatabase field later <|> ofDatabase field earlier) :=
  bind_combine hfield earlier.database later.database

theorem ofQuery_overlay {field : QuerySection → Option α}
    (hfield : ∀ a b, field (a.overlay b) = (field b <|> field a)) (earlier later : ConfigFile) :
    ofQuery field (earlier.overlay later) = (ofQuery field later <|> ofQuery field earlier) :=
  bind_combine hfield earlier.query later.query

/-- Of many files over each other the last one counts that says something. -/
theorem foldl_overlay {get : ConfigFile → Option α}
    (hget : ∀ earlier later, get (earlier.overlay later) = (get later <|> get earlier))
    (files : List ConfigFile) (c : ConfigFile) :
    get (files.foldl overlay c) = (files.reverse.findSome? get <|> get c) := by
  induction files generalizing c with
  | nil => simp
  | cons file rest ih =>
    rw [List.foldl_cons, ih, hget, List.reverse_cons, List.findSome?_append]
    cases rest.reverse.findSome? get <;> simp

end ConfigFile

namespace Settings

open ConfigFile (ofDatabase ofQuery)

/-! ## What is read -/

section Reading

variable {t : FileTree} {p : Places} {o : Overrides} {path : String} {c : ConfigFile}
  {file : Option ConfigFile}

/-- The file at a path, when it is there and well formed. -/
def fileAt (t : FileTree) (p : Places) (path : String) : Option ConfigFile :=
  match t.read p path with
  | .ok content => (ConfigFile.ofJson content).toOption
  | .error _ => none

/-- Where the overlay stands: where it was asked for, or else in the current directory. -/
def overlayPlace (p : Places) (o : Overrides) : String :=
  match o.config with
  | some path => Location.expand p path
  | none => configFileName

def layers (t : FileTree) (p : Places) (o : Overrides) : List ConfigFile :=
  (fileAt t p (overlayPlace p o)).toList ++ ((profilePath? p).bind (fileAt t p)).toList

theorem fileAt_of_readFile (h : readFile t p path = .ok c) : fileAt t p path = some c := by
  unfold readFile at h
  unfold fileAt
  cases hread : t.read p path with
  | error cause =>
    rw [hread] at h
    cases h
  | ok content =>
    rw [hread] at h
    dsimp only at h ⊢
    cases hjson : ConfigFile.ofJson content with
    | error fault =>
      rw [hjson] at h
      cases h
    | ok c' =>
      rw [hjson] at h
      cases h
      rfl

theorem fileAt_of_absent (h : t.exists? p path = false) : fileAt t p path = none := by
  have hnone : t.find? p path = none := by simpa [FileTree.exists?] using h
  rw [fileAt, FileTree.read, hnone]

/-- A path that leads somewhere leads to a well-formed file. -/
def WellFormed (t : FileTree) (p : Places) (path : String) : Prop :=
  t.exists? p path = true → (fileAt t p path).isSome = true

theorem readFile_eq_ok (h : some <$> readFile t p path = .ok file) :
    file = fileAt t p path ∧ WellFormed t p path := by
  obtain ⟨c, hc, rfl⟩ := Success.map_eq_ok.mp h
  have hfile := fileAt_of_readFile hc
  refine ⟨hfile.symm, fun _ => ?_⟩
  rw [hfile]
  rfl

theorem absent_eq (h : t.exists? p path = false) :
    none = fileAt t p path ∧ WellFormed t p path := by
  refine ⟨(fileAt_of_absent h).symm, fun hexists => ?_⟩
  rw [h] at hexists
  cases hexists

theorem profile_eq_ok (h : profile t p = .ok file) :
    file = (profilePath? p).bind (fileAt t p) ∧ ∀ path ∈ profilePath? p, WellFormed t p path := by
  unfold profile at h
  cases hpath : profilePath? p with
  | none =>
    rw [hpath] at h
    cases h
    exact ⟨rfl, fun _ hmem => by cases hmem⟩
  | some path =>
    rw [hpath] at h
    dsimp only at h
    have hread : file = fileAt t p path ∧ WellFormed t p path := by
      split at h
      · exact readFile_eq_ok h
      · next habsent =>
        cases h
        exact absent_eq (by simpa using habsent)
    refine ⟨hread.1, fun _ hmem => ?_⟩
    cases hmem
    exact hread.2

theorem overlayFile_of_config (h : o.config = some path) :
    overlayFile t p o =
      if t.exists? p (Location.expand p path) then
        some <$> readFile t p (Location.expand p path)
      else .error (.noFile (Location.expand p path)) := by
  unfold overlayFile overlayPath
  rw [h]
  dsimp only
  split <;> rfl

theorem overlayFile_of_none (h : o.config = none) :
    overlayFile t p o =
      if t.exists? p configFileName then some <$> readFile t p configFileName else .ok none := by
  unfold overlayFile overlayPath
  rw [h]
  dsimp only
  split <;> rfl

/-- The overlay was read from its place, where it must stand when it was asked for. -/
theorem overlayFile_eq_ok (h : overlayFile t p o = .ok file) :
    file = fileAt t p (overlayPlace p o) ∧ WellFormed t p (overlayPlace p o) ∧
      (o.config.isSome = true → file.isSome = true) := by
  unfold overlayPlace
  cases hconfig : o.config with
  | some path =>
    rw [overlayFile_of_config hconfig] at h
    split at h
    · next hexists =>
      obtain ⟨hfile, hwell⟩ := readFile_eq_ok h
      exact ⟨hfile, hwell, fun _ => hfile ▸ hwell hexists⟩
    · cases h
  | none =>
    rw [overlayFile_of_none hconfig] at h
    refine and_assoc.mp ⟨?_, fun hsome => by cases hsome⟩
    split at h
    · exact readFile_eq_ok h
    · next habsent =>
      cases h
      exact absent_eq (by simpa using habsent)

/-- A run that asks for an overlay looks at that file and the profile, and at no other. -/
theorem load_congr {t' : FileTree} (hconfig : o.config = some path)
    (hpath : t'.find? p (Location.expand p path) = t.find? p (Location.expand p path))
    (hprofile : ∀ place ∈ profilePath? p, t'.find? p place = t.find? p place) :
    load t' p o = load t p o := by
  have hread : ∀ {place}, t'.find? p place = t.find? p place →
      t'.exists? p place = t.exists? p place ∧ readFile t' p place = readFile t p place := by
    intro place h
    constructor
    · rw [FileTree.exists?, FileTree.exists?, h]
    · rw [readFile, readFile, FileTree.read, FileTree.read, h]
  have hlower : profile t' p = profile t p := by
    unfold profile
    cases h : profilePath? p with
    | none => rfl
    | some place =>
      obtain ⟨hexists, hfile⟩ := hread (hprofile place h)
      dsimp only
      rw [hexists, hfile]
  have hupper : overlayFile t' p o = overlayFile t p o := by
    obtain ⟨hexists, hfile⟩ := hread hpath
    rw [overlayFile_of_config hconfig, overlayFile_of_config hconfig, hexists, hfile]
  rw [load, load, hlower, hupper]

end Reading

/-! ## What wins -/

/-- What the layers say of the settings, each field as the highest layer has it. -/
structure Winning where
  backend : Option Backend
  url : Option String
  maxConnections : Option UInt32
  defaultLimit : Option UInt32
deriving DecidableEq, Repr

def winning (o : Overrides) (files : List ConfigFile) : Winning where
  backend := o.backend <|> files.findSome? (ofDatabase DatabaseSection.backend)
  url := o.databaseUrl <|> files.findSome? (ofDatabase DatabaseSection.url)
  maxConnections :=
    o.maxConnections <|> files.findSome? (ofDatabase DatabaseSection.maxConnections)
  defaultLimit := files.findSome? (ofQuery QuerySection.defaultLimit)

/-- The settings hold what won, and defaults where nothing did. -/
structure Follows (p : Places) (w : Winning) (s : Settings) : Prop where
  maxConnections : s.maxConnections = w.maxConnections.getD 2
  defaultLimit : s.defaultLimit = w.defaultLimit.getD 50
  backend : s.backend = (w.backend <|> w.url.map inferBackend).getD .sqlite
  sqlite : s.backend = .sqlite → s.url = w.url.map (Location.ofDatabase p)
  postgres : s.backend = .postgres → s.url = w.url

/-- What won decides the settings. -/
theorem Follows.unique {p : Places} {w : Winning} {s s' : Settings} (h : Follows p w s)
    (h' : Follows p w s') :
    s'.backend = s.backend ∧ s'.url = s.url ∧ s'.maxConnections = s.maxConnections ∧
      s'.defaultLimit = s.defaultLimit := by
  have hbackend : s'.backend = s.backend := h'.backend.trans h.backend.symm
  refine ⟨hbackend, ?_, h'.maxConnections.trans h.maxConnections.symm,
    h'.defaultLimit.trans h.defaultLimit.symm⟩
  cases hs : s.backend with
  | sqlite => rw [h.sqlite hs, h'.sqlite (hbackend.trans hs)]
  | postgres => rw [h.postgres hs, h'.postgres (hbackend.trans hs)]

theorem mergeFiles_says {α : Type} {get : ConfigFile → Option α} (files : List ConfigFile)
    (hget : ∀ earlier later, get (earlier.overlay later) = (get later <|> get earlier))
    (hblank : get .blank = none) :
    get (mergeFiles files) = files.reverse.findSome? get := by
  rw [mergeFiles, ConfigFile.foldl_overlay hget, hblank]
  cases files.reverse.findSome? get <;> rfl

/-- The location before it is made absolute is the one that wins. -/
theorem effectiveUrl_mergeFiles (o : Overrides) (files : List ConfigFile) :
    effectiveUrl o (mergeFiles files) = (winning o files.reverse).url :=
  congrArg (o.databaseUrl <|> ·) <|
    mergeFiles_says files (ConfigFile.ofDatabase_overlay fun _ _ => rfl) rfl

theorem follows_ofLayers (p : Places) (o : Overrides) (files : List ConfigFile) :
    Follows p (winning o files.reverse) (ofLayers p o (mergeFiles files)).1 := by
  have hbackend : (mergeFiles files).database.bind DatabaseSection.backend =
      files.reverse.findSome? (ofDatabase DatabaseSection.backend) :=
    mergeFiles_says files (ConfigFile.ofDatabase_overlay fun _ _ => rfl) rfl
  have hconnections : (mergeFiles files).database.bind DatabaseSection.maxConnections =
      files.reverse.findSome? (ofDatabase DatabaseSection.maxConnections) :=
    mergeFiles_says files (ConfigFile.ofDatabase_overlay fun _ _ => rfl) rfl
  have hlimit : (mergeFiles files).query.bind QuerySection.defaultLimit =
      files.reverse.findSome? (ofQuery QuerySection.defaultLimit) :=
    mergeFiles_says files (ConfigFile.ofQuery_overlay fun _ _ => rfl) rfl
  have heffective := effectiveUrl_mergeFiles o files
  refine ⟨?_, ?_, ?_, fun h => ?_, fun h => ?_⟩
  · exact congrArg (fun x => (o.maxConnections <|> x).getD 2) hconnections
  · exact congrArg (Option.getD · 50) hlimit
  · show (o.backend <|> (mergeFiles files).database.bind DatabaseSection.backend <|>
      (effectiveUrl o (mergeFiles files)).map inferBackend).getD .sqlite = _
    rw [hbackend, heffective]
    cases hnamed : o.backend <;> simp [winning, hnamed]
  · have hsqlite : effectiveBackend o (mergeFiles files) = .sqlite := h
    dsimp only [ofLayers]
    rw [hsqlite, heffective]
  · have hpostgres : effectiveBackend o (mergeFiles files) = .postgres := h
    dsimp only [ofLayers]
    rw [hpostgres, heffective]

/-- The files that are read are the layers, the lowest first. -/
theorem files_eq {t : FileTree} {p : Places} {o : Overrides} {lower upper : Option ConfigFile}
    (hlower : profile t p = .ok lower) (hupper : overlayFile t p o = .ok upper) :
    lower.toList ++ upper.toList = (layers t p o).reverse := by
  obtain ⟨rfl, -⟩ := profile_eq_ok hlower
  obtain ⟨rfl, -⟩ := overlayFile_eq_ok hupper
  have hreverse : ∀ file : Option ConfigFile, file.toList.reverse = file.toList := by
    intro file
    cases file <;> rfl
  rw [layers, List.reverse_append, hreverse, hreverse]

/-- A run that loads has read its files, and its settings are valid and made from them. -/
theorem load_eq_ok {t : FileTree} {p : Places} {o : Overrides} {s : Settings}
    {warnings : List Warning} (h : load t p o = .ok (s, warnings)) :
    (∀ path ∈ profilePath? p, WellFormed t p path) ∧ WellFormed t p (overlayPlace p o) ∧
      (o.config.isSome = true → (fileAt t p (overlayPlace p o)).isSome = true) ∧
      s = (ofLayers p o (mergeFiles (layers t p o).reverse)).1 ∧ s.validate = .ok () := by
  obtain ⟨lower, hlower, h⟩ := Success.bind_eq_ok.mp h
  obtain ⟨upper, hupper, h⟩ := Success.bind_eq_ok.mp h
  obtain ⟨_, hvalid, h⟩ := Success.bind_eq_ok.mp h
  cases h
  obtain ⟨-, hprofile⟩ := profile_eq_ok hlower
  obtain ⟨hfile, hoverlay, hgiven⟩ := overlayFile_eq_ok hupper
  refine ⟨hprofile, hoverlay, hfile ▸ hgiven, ?_, hvalid⟩
  rw [← files_eq hlower hupper]
  rfl

/-- A run that loads has read its files, and its settings follow them. -/
theorem follows_of_load {t : FileTree} {p : Places} {o : Overrides} {s : Settings}
    {warnings : List Warning} (h : load t p o = .ok (s, warnings)) :
    (∀ path ∈ profilePath? p, WellFormed t p path) ∧ WellFormed t p (overlayPlace p o) ∧
      (o.config.isSome = true → (fileAt t p (overlayPlace p o)).isSome = true) ∧
      Follows p (winning o (layers t p o)) s := by
  obtain ⟨hprofile, hoverlay, hgiven, rfl, _⟩ := load_eq_ok h
  have hfollows := follows_ofLayers p o (layers t p o).reverse
  rw [List.reverse_reverse] at hfollows
  exact ⟨hprofile, hoverlay, hgiven, hfollows⟩

/-- Settings are layered field by field, and the last layer wins.  A run that loads reads the
profile and one overlay, which are well formed where they stand; its settings are what the command
line, the overlay and the profile say, in this order, or else the defaults; an overlay that was
asked for stands in for the one in the current directory, which then counts for nothing; and runs
where the same values win have the same settings, whatever else their layers say. -/
theorem load_layered {t : FileTree} {p : Places} {o : Overrides} {s : Settings}
    {warnings : List Warning} (h : load t p o = .ok (s, warnings)) :
    ((∀ path ∈ profilePath? p, WellFormed t p path) ∧ WellFormed t p (overlayPlace p o)) ∧
    Follows p (winning o (layers t p o)) s ∧
    (∀ path, o.config = some path →
      (∃ c, fileAt t p (Location.expand p path) = some c ∧
        layers t p o = c :: ((profilePath? p).bind (fileAt t p)).toList) ∧
      ∀ t' : FileTree, t'.find? p (Location.expand p path) = t.find? p (Location.expand p path) →
        (∀ place ∈ profilePath? p, t'.find? p place = t.find? p place) →
        load t' p o = load t p o) ∧
    (∀ t' o' s' warnings', load t' p o' = .ok (s', warnings') →
      winning o' (layers t' p o') = winning o (layers t p o) →
      s'.backend = s.backend ∧ s'.url = s.url ∧ s'.maxConnections = s.maxConnections ∧
        s'.defaultLimit = s.defaultLimit) := by
  obtain ⟨hprofile, hoverlay, hgiven, hfollows⟩ := follows_of_load h
  refine ⟨⟨hprofile, hoverlay⟩, hfollows, fun path hconfig => ⟨?_, fun t' hpath hplaces => ?_⟩,
    fun t' o' s' warnings' h' hsame => ?_⟩
  · have hplace : overlayPlace p o = Location.expand p path := by rw [overlayPlace, hconfig]
    obtain ⟨c, hc⟩ := Option.isSome_iff_exists.mp (hgiven (by rw [hconfig]; rfl))
    rw [hplace] at hc
    refine ⟨c, hc, ?_⟩
    rw [layers, hplace, hc]
    rfl
  · exact load_congr hconfig hpath hplaces
  · obtain ⟨_, _, _, hfollows'⟩ := follows_of_load h'
    rw [hsame] at hfollows'
    exact hfollows.unique hfollows'

def desk : FileTree where
  entries :=
    [(["home", "ada", ".cquery", "cquery.json"], .text <|
        "\x7b\"database\": \x7b\"url\": \"a.db\", \"max_connections\": 5\x7d, " ++
          "\"query\": \x7b\"default_limit\": 10\x7d\x7d"),
      (["work", "cquery.json"], .text <|
        "\x7b\"database\": \x7b\"url\": \"postgres://db/x\", \"backend\": null\x7d, " ++
          "\"query\": \x7b\x7d\x7d")]

theorem load_layered_desk : ∃ s warnings,
    load desk ⟨some "/home/ada", "/work"⟩ ⟨none, none, none, none⟩ = .ok (s, warnings) ∧
      s.backend = .postgres ∧ s.url = some "postgres://db/x" ∧ s.maxConnections = 5 ∧
        s.defaultLimit = 10 := by
  have hwinning : winning ⟨none, none, none, none⟩
      (layers desk ⟨some "/home/ada", "/work"⟩ ⟨none, none, none, none⟩) =
        ⟨none, some "postgres://db/x", some 5, some 10⟩ := by decide +kernel
  have hsome : (load desk ⟨some "/home/ada", "/work"⟩ ⟨none, none, none, none⟩).toOption.isSome =
      true := by decide +kernel
  obtain ⟨⟨s, warnings⟩, hs⟩ := Option.isSome_iff_exists.mp hsome
  have hload := Success.toOption_eq_some.mp hs
  have hfollows := (load_layered hload).2.1
  rw [hwinning] at hfollows
  have hbackend : s.backend = .postgres := hfollows.backend.trans (by decide +kernel)
  exact ⟨s, warnings, hload, hbackend, hfollows.postgres hbackend, hfollows.maxConnections,
    hfollows.defaultLimit⟩

end Settings
end TableSearch
