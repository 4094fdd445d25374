/-
Locations that users write.

A joined path ends as its second part does, or in a separator when that is empty.  So making a path
absolute leaves no white space at its end, and an absolute path is a location that is left alone:
`paths_expand`.  What follows `~/` is joined to the home directory like any other path, so it stays
below this directory only when it does not begin with another separator: `expand_leaves_home`.
-/
import TableSearch.Settings.Location
import TableSearch.Proofs.Text.Parts

namespace TableSearch
namespace Location

variable {p : Places} {base path home url : String}

/-! ## Joining -/

theorem isAbsolute_iff : isAbsolute path = true ↔ path.toList.head? = some '/' := by
  refine ⟨fun h => Text.head?_of_startsWith h rfl, fun h => ?_⟩
  obtain ⟨rest, hrest⟩ := List.head?_eq_some_iff.mp h
  rw [isAbsolute, Text.startsWith, List.isPrefixOf_iff_prefix, hrest]
  exact ⟨rest, rfl⟩

theorem isAbsolute_append (h : isAbsolute base = true) (s : String) :
    isAbsolute (base ++ s) = true := by
  rw [isAbsolute_iff] at h ⊢
  rw [String.toList_append, List.head?_append, h]
  rfl

theorem isAbsolute_join (h : isAbsolute base = true) (path : String) :
    isAbsolute (join base path) = true := by
  unfold join
  split
  · assumption
  · exact isAbsolute_append (isAbsolute_append h _) path

/-- A directory with a separator at its end. -/
theorem join_empty (base : String) :
    join base "" = if needsSeparator base then base ++ "/" else base := by
  have hempty : isAbsolute "" = false := rfl
  rw [join, hempty, if_neg Bool.false_ne_true]
  split <;> simp

theorem getLast?_join_empty (h : isAbsolute base = true) :
    (join base "").toList.getLast? = some '/' := by
  rw [join_empty]
  split
  · rw [String.toList_append, List.getLast?_append]
    rfl
  · next hnone =>
    rw [needsSeparator] at hnone
    cases hc : base.toList.getLast? with
    | none =>
      rw [isAbsolute_iff, List.getLast?_eq_none_iff.mp hc] at h
      cases h
    | some c => simpa [hc] using hnone

theorem getLast?_join (hne : path ≠ "") :
    (join base path).toList.getLast? = path.toList.getLast? := by
  unfold join
  split
  · rfl
  · have hlist : path.toList ≠ [] := fun h => hne (String.toList_eq_nil_iff.mp h)
    rw [String.toList_append, List.getLast?_append, List.getLast?_eq_some_getLast hlist]
    rfl

/-- No white space comes to the end of a path by joining. -/
theorem not_space_getLast?_join (h : isAbsolute base = true)
    (hpath : ∀ c ∈ path.toList.getLast?, Text.isSpace c = false) :
    ∀ c ∈ (join base path).toList.getLast?, Text.isSpace c = false := by
  by_cases hempty : path = ""
  · rw [hempty, getLast?_join_empty h]
    rintro c ⟨⟩
    decide
  · rwa [getLast?_join hempty]

theorem trim_of_isAbsolute (h : isAbsolute path = true)
    (hlast : ∀ c ∈ path.toList.getLast?, Text.isSpace c = false) : Text.trim path = path := by
  refine Text.trim_eq_self ?_ hlast
  rw [isAbsolute_iff.mp h]
  rintro c ⟨⟩
  decide

theorem trim_join (h : isAbsolute base = true)
    (hpath : ∀ c ∈ path.toList.getLast?, Text.isSpace c = false) :
    Text.trim (join base path) = join base path :=
  trim_of_isAbsolute (isAbsolute_join h path) (not_space_getLast?_join h hpath)

/-! ## The home directory -/

theorem withHome_tilde (hhome : p.home = some home) : withHome p "~" = home := by
  rw [withHome, hhome]
  rfl

theorem withHome_below (hhome : p.home = some home) (rest : String) :
    withHome p ("~/" ++ rest) = join home rest := by
  have hne : "~/" ++ rest ≠ "~" := by
    intro h
    have hlength := congrArg String.length h
    rw [String.length_append, show "~/".length = 2 from rfl,
      show "~".length = 1 from rfl] at hlength
    omega
  rw [withHome, hhome]
  dsimp only
  rw [if_neg hne, Text.dropStart?_eq_some.mpr rfl]

theorem withHome_other (htilde : path ≠ "~") (hbelow : Text.startsWith "~/" path = false) :
    withHome p path = path := by
  unfold withHome
  cases p.home with
  | none => rfl
  | some home =>
    have hdrop : Text.dropStart? "~/" path = none := by
      rw [Option.eq_none_iff_forall_ne_some]
      intro rest hrest
      rw [Text.dropStart?_eq_some.mp hrest, Text.startsWith_append] at hbelow
      cases hbelow
    dsimp only
    rw [if_neg htilde, hdrop]

/-- An absolute path does not begin as others do that are no plain paths. -/
theorem startsWith_of_isAbsolute (h : isAbsolute path = true) {start : String} {c : Char}
    (hstart : start.toList.head? = some c) (hc : c ≠ '/') : Text.startsWith start path = false := by
  refine Text.startsWith_eq_false hstart fun hhead => ?_
  rw [isAbsolute_iff.mp h, Option.some_inj] at hhead
  exact hc hhead.symm

theorem withHome_of_isAbsolute (h : isAbsolute path = true) : withHome p path = path := by
  refine withHome_other ?_ (startsWith_of_isAbsolute h rfl (by decide))
  rintro rfl
  cases h

/-! ## Directories -/

/-- An absolute path that ends in neither white space nor a separator. -/
structure IsDirectory (path : String) : Prop where
  absolute : isAbsolute path = true
  last : ∀ c ∈ path.toList.getLast?, Text.isSpace c = false ∧ c ≠ '/'

theorem isDirectory_of_getLast? {c : Char} (h : isAbsolute path = true)
    (hlast : path.toList.getLast? = some c) (hspace : Text.isSpace c = false) (hslash : c ≠ '/') :
    IsDirectory path where
  absolute := h
  last := by
    rw [hlast]
    rintro _ ⟨⟩
    exact ⟨hspace, hslash⟩

theorem IsDirectory.join_eq (h : IsDirectory base) (path : String) :
    join base path = if isAbsolute path then path else base ++ "/" ++ path := by
  have hseparator : needsSeparator base = true := by
    rw [needsSeparator]
    cases hc : base.toList.getLast? with
    | none =>
      have habsolute := h.absolute
      rw [isAbsolute_iff, List.getLast?_eq_none_iff.mp hc] at habsolute
      cases habsolute
    | some c => exact bne_iff_ne.mpr (h.last c hc).2
  rw [join, hseparator]
  rfl

/-- No white space comes to the end of a path with the home directory. -/
theorem not_space_getLast?_withHome (hhome : p.home = some home) (hdir : IsDirectory home)
    (hpath : ∀ c ∈ path.toList.getLast?, Text.isSpace c = false) :
    ∀ c ∈ (withHome p path).toList.getLast?, Text.isSpace c = false := by
  by_cases htilde : path = "~"
  · rw [htilde, withHome_tilde hhome]
    exact fun c hc => (hdir.last c hc).1
  · cases hbelow : Text.startsWith "~/" path with
    | false => rwa [withHome_other htilde hbelow]
    | true =>
      obtain ⟨rest, rfl⟩ := Text.exists_of_startsWith hbelow
      rw [withHome_below hhome]
      refine not_space_getLast?_join hdir.absolute fun c hc => hpath c ?_
      rw [String.toList_append, List.getLast?_append, hc]
      rfl

/-! ## Locations -/

theorem isAbsolute_expand (h : isAbsolute p.current = true) (path : String) :
    isAbsolute (expand p path) = true :=
  isAbsolute_join h _

theorem trim_expand (hhome : p.home = some home) (hdir : IsDirectory home)
    (hcurrent : isAbsolute p.current = true) (path : String) :
    Text.trim (expand p path) = expand p path :=
  trim_join hcurrent (not_space_getLast?_withHome hhome hdir (Text.not_space_getLast?_trim path))

theorem expand_absolute (h : isAbsolute (Text.trim path) = true) :
    expand p path = Text.trim path := by
  rw [expand, withHome_of_isAbsolute h, join, if_pos h]

/-- A text that is no path: a location with a scheme, or a database in memory. -/
def IsFixed (url : String) : Prop :=
  url = memory ∨ Text.startsWith "sqlite:" url = true

theorem ofDatabase_fixed (h : IsFixed (Text.trim url)) : ofDatabase p url = Text.trim url := by
  refine if_pos ?_
  rcases h with h | h
  · rw [h]
    rfl
  · rw [h, Bool.true_or]

theorem ofDatabase_path (h : ¬ IsFixed (Text.trim url)) : ofDatabase p url = expand p url := by
  obtain ⟨hmemory, hscheme⟩ := not_or.mp h
  have hpath : ofDatabase p url = expand p (Text.trim url) := by
    refine if_neg ?_
    rw [Bool.or_eq_true, beq_iff_eq]
    exact not_or.mpr ⟨hscheme, hmemory⟩
  rw [hpath, expand, Text.trim_trim, expand]

theorem not_isFixed_of_isAbsolute (h : isAbsolute url = true) : ¬ IsFixed url := by
  rintro (rfl | hscheme)
  · cases h
  · rw [startsWith_of_isAbsolute h rfl (by decide)] at hscheme
    cases hscheme

/-- An absolute path is the location that it looks like. -/
theorem ofDatabase_absolute (h : isAbsolute path = true) (htrim : Text.trim path = path) :
    ofDatabase p path = path := by
  rw [← htrim] at h
  rw [ofDatabase_path (not_isFixed_of_isAbsolute h), expand_absolute h, htrim]

theorem ofDatabase_blank (p : Places) (h : Text.isBlank url = true) :
    ofDatabase p url = join p.current "" := by
  have htrim : Text.trim url = "" := Text.trim_eq_empty.mpr h
  have hfixed : ¬ IsFixed (Text.trim url) := by
    rw [htrim]
    rintro (hmemory | hscheme)
    · exact absurd hmemory (by decide)
    · cases hscheme
  rw [ofDatabase_path hfixed, expand, htrim, withHome_other (by decide) rfl]

/-- A location is settled at once: asking for it again gives the same. -/
theorem ofDatabase_ofDatabase (hhome : p.home = some home) (hdir : IsDirectory home)
    (hcurrent : isAbsolute p.current = true) (url : String) :
    ofDatabase p (ofDatabase p url) = ofDatabase p url := by
  by_cases hfixed : IsFixed (Text.trim url)
  · rw [ofDatabase_fixed hfixed, ofDatabase_fixed (by rwa [Text.trim_trim]), Text.trim_trim]
  · rw [ofDatabase_path hfixed]
    exact ofDatabase_absolute (isAbsolute_expand hcurrent url)
      (trim_expand hhome hdir hcurrent url)

/-- What stays as it is written is no path, or an absolute one. -/
theorem ofDatabase_eq_trim_iff (hcurrent : isAbsolute p.current = true) :
    ofDatabase p url = Text.trim url ↔
      IsFixed (Text.trim url) ∨ isAbsolute (Text.trim url) = true := by
  by_cases hfixed : IsFixed (Text.trim url)
  · simp only [ofDatabase_fixed hfixed, hfixed, true_or]
  · rw [ofDatabase_path hfixed, or_iff_right hfixed]
    constructor
    · intro h
      rw [← h]
      exact isAbsolute_expand hcurrent url
    · exact expand_absolute

/-- Paths of users, made absolute.  `~` is the home directory, and what follows `~/` is below it,
or stands for itself when it is absolute; other relative paths are below the current directory, and
absolute ones stay as they are.  The location of a database is settled at once, and only fixed
texts and absolute paths stay as they are written. -/
theorem paths_expand (hhome : p.home = some home) (hdir : IsDirectory home)
    (hcurrent : IsDirectory p.current) (path : String) :
    isAbsolute (expand p path) = true ∧
      (Text.trim path = "~" → expand p path = home) ∧
      (∀ rest, Text.trim path = "~/" ++ rest →
        expand p path = if isAbsolute rest then rest else home ++ "/" ++ rest) ∧
      (isAbsolute (Text.trim path) = false → Text.trim path ≠ "~" →
        Text.startsWith "~/" (Text.trim path) = false →
          expand p path = p.current ++ "/" ++ Text.trim path) ∧
      (isAbsolute (Text.trim path) = true → expand p path = Text.trim path) ∧
      ofDatabase p (ofDatabase p path) = ofDatabase p path ∧
      (ofDatabase p path = Text.trim path ↔
        Text.trim path = ":memory:" ∨ Text.startsWith "sqlite:" (Text.trim path) = true ∨
          isAbsolute (Text.trim path) = true) := by
  refine ⟨isAbsolute_expand hcurrent.absolute path, fun htilde => ?_, fun rest hbelow => ?_,
    fun hrelative htilde hbelow => ?_, expand_absolute,
    ofDatabase_ofDatabase hhome hdir hcurrent.absolute path, ?_⟩
  · rw [expand, htilde, withHome_tilde hhome, join, if_pos hdir.absolute]
  · have habsolute : isAbsolute (join home rest) = true := isAbsolute_join hdir.absolute rest
    rw [expand, hbelow, withHome_below hhome, join, if_pos habsolute, hdir.join_eq]
  · rw [expand, withHome_other htilde hbelow, hcurrent.join_eq, hrelative]
    rfl
  · rw [ofDatabase_eq_trim_iff hcurrent.absolute]
    exact or_assoc

theorem isDirectory_home : IsDirectory "/home/ada" :=
  isDirectory_of_getLast? rfl rfl rfl (by decide)

theorem isDirectory_work : IsDirectory "/work" :=
  isDirectory_of_getLast? rfl rfl rfl (by decide)

theorem paths_expand_tilde :
    IsDirectory "/home/ada" ∧ IsDirectory "/work" ∧
      expand ⟨some "/home/ada", "/work"⟩ " ~/app.db " = "/home/ada/app.db" ∧
      expand ⟨some "/home/ada", "/work"⟩ "~ada/app.db" = "/work/~ada/app.db" ∧
      ofDatabase ⟨some "/home/ada", "/work"⟩ (ofDatabase ⟨some "/home/ada", "/work"⟩ " ") =
        ofDatabase ⟨some "/home/ada", "/work"⟩ " " := by
  have hexpand := paths_expand (p := ⟨some "/home/ada", "/work"⟩) rfl isDirectory_home
    isDirectory_work
  refine ⟨isDirectory_home, isDirectory_work, ?_, ?_, (hexpand " ").2.2.2.2.2.1⟩
  · exact (hexpand " ~/app.db ").2.2.1 "app.db" (by decide)
  · exact (hexpand "~ada/app.db").2.2.2.1 (by decide) (by decide) (by decide)

/-- A path after `~/` is not always below the home directory: with one more separator it is
somewhere else. -/
theorem expand_leaves_home :
    ¬ ∀ (p : Places) (home path : String), p.home = some home → IsDirectory home →
      IsDirectory p.current → Text.startsWith "~/" (Text.trim path) = true →
        expand p path = home ∨ Text.startsWith (home ++ "/") (expand p path) = true := by
  intro h
  have hexpand : expand ⟨some "/home/ada", "/work"⟩ "~//app.db" = "/app.db" := by decide
  rcases h ⟨some "/home/ada", "/work"⟩ "/home/ada" "~//app.db" rfl isDirectory_home
    isDirectory_work (by decide) with hhome | hbelow
  · rw [hexpand] at hhome
    exact absurd hhome (by decide)
  · rw [hexpand] at hbelow
    exact absurd hbelow (by decide)

end Location
end TableSearch
