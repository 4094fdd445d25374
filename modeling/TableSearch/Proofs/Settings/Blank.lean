/-
Locations that are blank.

Settings with a blank location are refused, but they are checked after the location was made
absolute, and what is made of a blank one is the current directory.  So a server's location is
refused when it is blank, and for the embedded engine a blank location is read as the current
directory: `load_blank`.
-/
import TableSearch.Proofs.Settings.Layering
import TableSearch.Proofs.Settings.Location

namespace TableSearch
namespace Settings

theorem inferBackend_blank {url : String} (h : Text.isBlank url = true) :
    inferBackend url = .sqlite := by
  have hletter : url.toList.head? ≠ some 'p' := by
    intro hhead
    have hspace := List.all_eq_true.mp h 'p' (List.mem_of_mem_head? hhead)
    exact absurd hspace (by decide)
  rw [inferBackend, Text.startsWith_eq_false rfl hletter, Text.startsWith_eq_false rfl hletter]
  rfl

variable {t : FileTree} {p : Places} {o : Overrides} {url : String}

/-- The same run, asked for the current directory as a database of the embedded engine. -/
def atCurrent (p : Places) (o : Overrides) : Overrides :=
  { o with backend := some .sqlite, databaseUrl := some (Location.join p.current "") }

theorem ofLayers_blank {c : ConfigFile} (hcurrent : Location.isAbsolute p.current = true)
    (hurl : effectiveUrl o c = some url) (hblank : Text.isBlank url = true)
    (hbackend : effectiveBackend o c = .sqlite) :
    ofLayers p o c = ofLayers p (atCurrent p o) c := by
  have hplace : Location.ofDatabase p (Location.join p.current "") = Location.join p.current "" :=
    Location.ofDatabase_absolute (Location.isAbsolute_join hcurrent "")
      (Location.trim_join hcurrent (by simp))
  have hbackend' : effectiveBackend (atCurrent p o) c = .sqlite := rfl
  have hurl' : effectiveUrl (atCurrent p o) c = some (Location.join p.current "") := rfl
  unfold ofLayers
  rw [hbackend, hbackend', hurl, hurl']
  dsimp only [Option.map_some]
  rw [hplace, Location.ofDatabase_blank p hblank]
  rfl

theorem validate_blank {c : ConfigFile} (hurl : effectiveUrl o c = some url)
    (hblank : Text.isBlank url = true) (hbackend : effectiveBackend o c = .postgres) :
    (ofLayers p o c).1.validate = .error .blankUrl := by
  unfold ofLayers
  rw [hbackend, hurl]
  exact if_pos hblank

/-- What the files leave of the location and the backend is what wins. -/
theorem effective_of_read {lower upper : Option ConfigFile} (hlower : profile t p = .ok lower)
    (hupper : overlayFile t p o = .ok upper) :
    effectiveUrl o (mergeFiles (lower.toList ++ upper.toList)) = (winning o (layers t p o)).url ∧
    effectiveBackend o (mergeFiles (lower.toList ++ upper.toList)) =
      ((winning o (layers t p o)).backend <|>
        (winning o (layers t p o)).url.map inferBackend).getD .sqlite := by
  have hurl := effectiveUrl_mergeFiles o (layers t p o).reverse
  have hbackend := (follows_ofLayers p o (layers t p o).reverse).backend
  rw [List.reverse_reverse] at hurl hbackend
  rw [files_eq hlower hupper]
  exact ⟨hurl, hbackend⟩

/-- A blank location is not the server's by itself. -/
theorem backend_of_blank {w : Winning} (hurl : w.url = some url) (hblank : Text.isBlank url = true)
    (hother : w.backend ≠ some .postgres) :
    (w.backend <|> w.url.map inferBackend).getD .sqlite = .sqlite := by
  rw [hurl, Option.map_some, inferBackend_blank hblank]
  cases hnamed : w.backend with
  | none => rfl
  | some b =>
    cases b with
    | sqlite => rfl
    | postgres => exact absurd hnamed hother

/-- What a blank location is taken for.  When the server won, there are no settings: a file cannot
be read, or else the location is refused.  In all other cases the location is the current
directory, as though the command line had asked for it. -/
theorem load_blank (hcurrent : Location.isAbsolute p.current = true)
    (hurl : (winning o (layers t p o)).url = some url) (hblank : Text.isBlank url = true) :
    ((winning o (layers t p o)).backend = some .postgres →
      load t p o = do
        let _ ← profile t p
        let _ ← overlayFile t p o
        .error .blankUrl) ∧
    ((winning o (layers t p o)).backend ≠ some .postgres →
      load t p o = load t p (atCurrent p o) ∧
      ∀ s warnings, load t p o = .ok (s, warnings) →
        s.backend = .sqlite ∧ s.url = some (Location.join p.current "")) := by
  refine ⟨fun hserver => ?_, fun hother => ⟨?_, fun s warnings hload => ?_⟩⟩
  · refine Success.bind_congr fun lower hlower => Success.bind_congr fun upper hupper => ?_
    obtain ⟨heffective, hbackend⟩ := effective_of_read hlower hupper
    rw [hserver] at hbackend
    show (do
      (ofLayers p o (mergeFiles (lower.toList ++ upper.toList))).1.validate
      pure _) = _
    rw [validate_blank (heffective.trans hurl) hblank hbackend]
    rfl
  · refine Success.bind_congr fun lower hlower => Success.bind_congr fun upper hupper => ?_
    obtain ⟨heffective, hbackend⟩ := effective_of_read hlower hupper
    have hsame := ofLayers_blank hcurrent (heffective.trans hurl) hblank
      (hbackend.trans (backend_of_blank hurl hblank hother))
    dsimp only
    rw [hsame]
  · obtain ⟨-, -, -, hfollows⟩ := follows_of_load hload
    have hbackend := hfollows.backend.trans (backend_of_blank hurl hblank hother)
    refine ⟨hbackend, (hfollows.sqlite hbackend).trans ?_⟩
    rw [hurl, Option.map_some, Location.ofDatabase_blank p hblank]

def blankDesk : FileTree where
  entries := [(["work", "cquery.json"], .text
    "\x7b\"database\": \x7b\"url\": \" \"\x7d\x7d")]

theorem load_blank_desk :
    (∃ s warnings, load blankDesk ⟨some "/home/ada", "/work"⟩ ⟨none, none, none, none⟩ =
        .ok (s, warnings) ∧ s.backend = .sqlite ∧ s.url = some "/work/") ∧
      load blankDesk ⟨some "/home/ada", "/work"⟩ ⟨none, some .postgres, none, none⟩ =
        .error .blankUrl := by
  have hwinning : ∀ backend ∈ [none, some Backend.postgres],
      winning ⟨none, backend, none, none⟩
        (layers blankDesk ⟨some "/home/ada", "/work"⟩ ⟨none, backend, none, none⟩) =
          ⟨backend, some " ", none, none⟩ := by decide +kernel
  have hinferred := hwinning none (by decide)
  have hserver := hwinning (some .postgres) (by decide)
  constructor
  · have hsome : (load blankDesk ⟨some "/home/ada", "/work"⟩
        ⟨none, none, none, none⟩).toOption.isSome = true := by decide +kernel
    obtain ⟨⟨s, warnings⟩, hs⟩ := Option.isSome_iff_exists.mp hsome
    have hload := Success.toOption_eq_some.mp hs
    have hother := (load_blank rfl (by rw [hinferred]) rfl).2 (by rw [hinferred]; decide)
    exact ⟨s, warnings, hload, hother.2 s warnings hload⟩
  · have hupper : (overlayFile blankDesk ⟨some "/home/ada", "/work"⟩
        ⟨none, some .postgres, none, none⟩).toOption.isSome = true := by decide +kernel
    obtain ⟨upper, hupper⟩ := Option.isSome_iff_exists.mp hupper
    have hlower : (profile blankDesk ⟨some "/home/ada", "/work"⟩).toOption.isSome = true := by
      decide +kernel
    obtain ⟨lower, hlower⟩ := Option.isSome_iff_exists.mp hlower
    rw [(load_blank rfl (by rw [hserver]) rfl).1 (by rw [hserver]),
      Success.toOption_eq_some.mp hlower, Success.toOption_eq_some.mp hupper]
    rfl

/-- A blank location is not refused: the settings are of the current directory. -/
theorem blank_accepted :
    ((load ⟨[]⟩ ⟨some "/home/ada", "/work"⟩ ⟨none, none, some "", none⟩).toOption.map
      fun loaded => loaded.1.url) = some (some "/work/") := by
  decide +kernel

end Settings
end TableSearch
