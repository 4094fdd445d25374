/-
Filters and sort terms as arguments.

An argument is cut at its first equals sign, and no key that can be written has one, so whatever a
value holds stays together; what is no JSON of a value is a text as it stands.  Of the arguments of
one key the last counts (`collected_of_written`).  A sort term is cut at its last colon, and no
direction has one.  So every search can be written in arguments: `queries_carried`.
-/
import TableSearch.CommandLine.Invocation
import TableSearch.Proofs.Filter.Key
import TableSearch.Proofs.Json.Nesting
import TableSearch.Proofs.Keyed
import TableSearch.Proofs.Text.ByteOrder
import TableSearch.Proofs.Text.Parts

namespace TableSearch

/-! ## Values -/

namespace Value

def ofArgument (raw : String) : Value :=
  (ofJson raw).toOption.getD (.text raw)

theorem ofArgument_of_ofJson {raw : String} {v : Value} (h : ofJson raw = .ok v) :
    ofArgument raw = v := by
  rw [ofArgument, h]
  rfl

theorem ofArgument_text {raw : String} (h : ∀ v, ofJson raw ≠ .ok v) :
    ofArgument raw = .text raw := by
  unfold ofArgument
  cases hread : ofJson raw with
  | error fault => rfl
  | ok v => exact absurd hread (h v)

/-- A text that is no JSON at all, or has an object somewhere, or nests too deeply. -/
inductive Unread (raw : String) : Prop where
  | malformed (h : Json.Parsed.ofText? raw = none)
  | object {ts} (hts : Json.Token.all? raw.toList = some ts) (h : .openObject ∈ ts)
  | nested {before after} (hts : Json.Token.all? raw.toList = some (before ++ after))
      (h : 127 < Json.Token.nesting before)

theorem Unread.ofJson_ne {raw : String} (h : Unread raw) (v : Value) : ofJson raw ≠ .ok v := by
  intro hv
  cases h with
  | malformed h =>
    obtain ⟨n, hn, -⟩ := ofParsed_of_ofJson hv
    rw [h] at hn
    cases hn
  | object hts h =>
    obtain ⟨fault, hfault⟩ := ofJson_object hts h
    rw [hfault] at hv
    cases hv
  | nested hts h => exact ofJson_nested hts h v hv

/-- Opening brackets alone nest too deeply when there are too many of them. -/
theorem unread_replicate {count : ℕ} (h : 127 < count) :
    Unread (String.ofList (List.replicate count '[')) := by
  have htokens := Json.Token.all?_replicate count []
  rw [Json.Token.all?, Option.map_some, List.append_nil] at htokens
  refine .nested (by rwa [String.toList_ofList]) ?_
  rw [Json.Token.nesting_replicate]
  exact_mod_cast h

end Value

/-! ## Filters -/

namespace Filter

variable {f g : Filter} {fs found : List Filter}

def fullKey (f : Filter) : String :=
  key f.operator f.path

def argument (f : Filter) : String :=
  f.fullKey ++ "=" ++ f.value.toJson

structure Writable (f : Filter) : Prop where
  path : Text.isBlank f.path = false
  equals : '=' ∉ f.path.toList
  last : ∀ c ∈ f.path.toList.getLast?, Text.isSpace c = false
  depth : f.value.depth ≤ 127
  floats : ∀ x ∈ f.value.floats, x.isFinite = true ∧ x.ReadsNearest

theorem fullKey_toList (f : Filter) :
    f.fullKey.toList = f.operator.token.toList ++ '_' :: f.path.toList := by
  simp [fullKey, key]

theorem Writable.equals_fullKey (h : f.Writable) : '=' ∉ f.fullKey.toList := by
  have htoken : '=' ∉ f.operator.token.toList := by cases f.operator <;> decide
  rw [fullKey_toList, List.mem_append, List.mem_cons]
  simp [htoken, h.equals]

/-- Nothing is trimmed from the key. -/
theorem Writable.trim_fullKey (h : f.Writable) : Text.trim f.fullKey = f.fullKey := by
  refine Text.trim_eq_self ?_ ?_
  · rw [fullKey_toList]
    cases f.operator <;> simp [Operator.token, Text.isSpace]
  · have hne : f.path.toList ≠ [] := by
      intro hnil
      have hblank := h.path
      rw [Text.isBlank, hnil] at hblank
      cases hblank
    have hlast := h.last
    rw [fullKey_toList, List.getLast?_append, List.getLast?_cons_of_ne_nil hne]
    rw [List.getLast?_eq_some_getLast hne] at hlast ⊢
    exact hlast

end Filter

/-! ## Reading arguments -/

namespace Argument

variable {s key raw property word : String} {d : Direction}

/-- An argument is cut at its first equals sign. -/
theorem readFilter_of_cut (h : Text.cutFirst '=' s = some (key, raw)) :
    readFilter s =
      if Text.isBlank key then .error ("Invalid filter '" ++ s ++ "'. Key must not be empty")
      else .ok (Text.trim key, Value.ofArgument raw) := by
  rw [readFilter, h]
  dsimp only
  rw [Text.isEmpty_trim, Value.ofArgument]
  cases Value.ofJson raw with
  | error fault => rfl
  | ok v => rfl

theorem cut_equals (hkey : '=' ∉ key.toList) :
    Text.cutFirst '=' (key ++ "=" ++ raw) = some (key, raw) :=
  Text.cutFirst_eq_some.mpr ⟨by simp, hkey⟩

theorem readFilter_of_key (hkey : '=' ∉ key.toList) (hblank : Text.isBlank key = false) :
    readFilter (key ++ "=" ++ raw) = .ok (Text.trim key, Value.ofArgument raw) := by
  rw [readFilter_of_cut (cut_equals hkey), if_neg (Bool.eq_false_iff.mp hblank)]

/-- An argument is no filter when it has no equals sign or nothing in front of the first one. -/
theorem readFilter_eq_error : (∃ message, readFilter s = .error message) ↔
    '=' ∉ s.toList ∨ ∃ key raw, s = key ++ "=" ++ raw ∧ '=' ∉ key.toList ∧ Text.trim key = "" := by
  cases hcut : Text.cutFirst '=' s with
  | none =>
    have hfails : readFilter s = .error ("Invalid filter '" ++ s ++ "'. Expected KEY=VALUE") := by
      rw [readFilter, hcut]
    exact iff_of_true ⟨_, hfails⟩ (.inl (Text.cutFirst_eq_none.mp hcut))
  | some parts =>
    obtain ⟨key, raw⟩ := parts
    obtain ⟨hlist, hkey⟩ := Text.cutFirst_eq_some.mp hcut
    have hs : s = key ++ "=" ++ raw := String.toList_inj.mp (by simp [hlist])
    have hmem : '=' ∈ s.toList := by simp [hlist]
    rw [readFilter_of_cut hcut]
    constructor
    · rintro ⟨message, h⟩
      by_cases hblank : Text.isBlank key = true
      · exact .inr ⟨key, raw, hs, hkey, Text.trim_eq_empty.mpr hblank⟩
      · rw [if_neg hblank] at h
        cases h
    · rintro (hno | ⟨key', raw', hs', hkey', htrim⟩)
      · exact absurd hmem hno
      · have hsame := hcut.symm.trans (hs' ▸ cut_equals hkey')
        cases hsame
        exact ⟨_, if_pos (Text.trim_eq_empty.mp htrim)⟩

/-- A filter that can be written is read from its argument. -/
theorem readFilter_argument {f : Filter} (h : f.Writable) :
    readFilter f.argument = .ok (f.fullKey, f.value) := by
  have hvalue : Value.ofJson f.value.toJson = .ok f.value := by
    rw [Value.ofJson_toJson, Value.mapFloats_survivor fun x hx _ => (h.floats x hx).2,
      Value.mapFloats_finite fun x hx => (h.floats x hx).1]
    exact if_pos h.depth
  have hblank : Text.isBlank f.fullKey = false := by
    refine Bool.eq_false_iff.mpr fun hall => ?_
    have hspace := List.all_eq_true.mp hall '_' (by simp [Filter.fullKey_toList])
    exact absurd hspace (by decide)
  rw [Filter.argument, readFilter_of_key h.equals_fullKey hblank, h.trim_fullKey,
    Value.ofArgument_of_ofJson hvalue]

/-! ### Sort terms -/

theorem parse_direction (h : Text.asciiLower word = d.name) : Direction.parse word = .ok d := by
  unfold Direction.parse
  rw [h]
  cases d <;> rfl

/-- No word of a direction has a colon. -/
theorem colon_not_mem (h : Text.asciiLower word = d.name) : ':' ∉ word.toList := by
  intro hmem
  have hlower : ':' ∈ d.name.toList := by
    rw [← h, Text.asciiLower, String.toList_ofList]
    exact List.mem_map_of_mem (f := Char.toLower) hmem
  cases d <;> simp [Direction.name] at hlower

theorem readTerm_of_direction (hblank : Text.isBlank property = false)
    (h : Text.asciiLower word = d.name) :
    readTerm (property ++ ":" ++ word) =
      .ok { property := Text.trim property, direction := d, nulls := .native } := by
  have hcut : Text.cutLast ':' (property ++ ":" ++ word) = some (property, word) :=
    Text.cutLast_of_not_mem (by simp) (colon_not_mem h)
  rw [readTerm, hcut]
  dsimp only
  rw [parse_direction h]
  dsimp only [bind, Except.bind, pure, Except.pure]
  rw [Text.isEmpty_trim, hblank, if_neg Bool.false_ne_true]

theorem readTerm_of_not_mem (hblank : Text.isBlank property = false)
    (hcolon : ':' ∉ property.toList) :
    readTerm property =
      .ok { property := Text.trim property, direction := .asc, nulls := .native } := by
  rw [readTerm, Text.cutLast_eq_none.mpr hcolon]
  dsimp only [bind, Except.bind, pure, Except.pure]
  rw [Text.isEmpty_trim, hblank, if_neg Bool.false_ne_true]

end Argument

/-! ## Many arguments -/

namespace Filter

variable {f g : Filter} {fs found : List Filter}

def entry (f : Filter) : String × Value :=
  (f.fullKey, f.value)

def paramsOf (fs : List Filter) : SearchParams :=
  Keyed.ofList (fs.map entry)

theorem entry_injective : Function.Injective entry := by
  intro f g h
  obtain ⟨hkey, hvalue⟩ := Prod.mk.inj h
  obtain ⟨hoperator, hpath⟩ := key_injective hkey
  obtain ⟨path, operator, value⟩ := f
  obtain ⟨path', operator', value'⟩ := g
  cases hoperator
  cases hpath
  cases hvalue
  rfl

theorem entry_of_parse {e : String × Value} (h : parse e = .ok f) : e = f.entry := by
  obtain ⟨operator, path, hkey, -, rfl⟩ := parse_eq_ok.mp h
  exact Prod.ext hkey rfl

/-- What is found of filters when of each key the last one counts. -/
structure Collected (fs found : List Filter) : Prop where
  last : ∀ f, f ∈ found ↔ ∃ before after, fs = before ++ f :: after ∧
    ∀ g ∈ after, g.fullKey ≠ f.fullKey
  /-- Each key is there once, in the order of the bytes. -/
  ordered : found.Pairwise fun f g => Utf8.encode f.fullKey.toList < Utf8.encode g.fullKey.toList

/-- The entries of parameters are those of the last filters of their keys. -/
theorem entry_mem_iff :
    f.entry ∈ (paramsOf fs).items ↔ ∃ before after,
      fs = before ++ f :: after ∧ ∀ g ∈ after, g.fullKey ≠ f.fullKey := by
  rw [paramsOf, Keyed.mem_iff_find?, Keyed.find?_ofList_eq_some]
  constructor
  · rintro ⟨before, after, hsplit, -, hlast⟩
    obtain ⟨before, rest, rfl, rfl, hrest⟩ := List.map_eq_append_iff.mp hsplit
    obtain ⟨g, after, rfl, hg, rfl⟩ := List.map_eq_cons_iff.mp hrest
    cases entry_injective hg
    exact ⟨before, after, rfl, fun g hg => hlast _ (List.mem_map_of_mem hg)⟩
  · rintro ⟨before, after, rfl, hlast⟩
    refine ⟨before.map entry, after.map entry, by simp, rfl, ?_⟩
    intro e he
    obtain ⟨g, hg, rfl⟩ := List.mem_map.mp he
    exact hlast g hg

theorem exists_of_mem {e : String × Value} (he : e ∈ (paramsOf fs).items) :
    ∃ f ∈ fs, f.entry = e := by
  obtain ⟨before, after, hsplit, -, -⟩ :=
    Keyed.find?_ofList_eq_some.mp (Keyed.mem_iff_find?.mp he)
  have hmem : e ∈ fs.map entry := by
    rw [hsplit]
    simp
  exact List.mem_map.mp hmem

/-- The parameters of filters with paths are read as the last filters of their keys. -/
theorem collected_of_paramsOf (hpath : ∀ f ∈ fs, Text.isBlank f.path = false) :
    ∃ found, parseAll (paramsOf fs).entries = .ok found ∧ Collected fs found := by
  have hread : ∀ e ∈ (paramsOf fs).entries, ∃ f, parse e = .ok f := by
    intro e he
    obtain ⟨f, hf, rfl⟩ := exists_of_mem he
    exact ⟨f, parse_key (hpath f hf)⟩
  obtain ⟨found, hfound⟩ := Success.exists_mapM_eq_ok.mpr hread
  have hitems : (paramsOf fs).items = found.map entry := by
    have hparsed := (Success.mapM_eq_ok.mp hfound).imp fun e f h => entry_of_parse h
    rw [← List.forall₂_eq_eq_eq, List.forall₂_map_right_iff]
    exact hparsed
  refine ⟨found, hfound, fun f => ?_, ?_⟩
  · rw [← entry_mem_iff, hitems]
    exact (List.mem_map_of_injective entry_injective).symm
  · have hincreasing := (paramsOf fs).increasing
    rw [hitems] at hincreasing
    exact (List.pairwise_map.mp hincreasing).imp Utf8.encode_lt_iff.mpr

end Filter

namespace Argument

/-- The arguments of filters are read one by one, and collected. -/
theorem mapM_readFilter {fs : List Filter} (h : ∀ f ∈ fs, f.Writable) :
    (fs.map Filter.argument).mapM readFilter = .ok (fs.map Filter.entry) := by
  rw [Success.mapM_eq_ok, List.forall₂_map_left_iff, List.forall₂_map_right_iff, List.forall₂_same]
  exact fun f hf => readFilter_argument (h f hf)

/-- Arguments carry every query.  The argument of a filter is read as its key and its value, and
those of many filters come to the last filter of each key, in the order of the keys.  The text
after the first equals sign is a value as it stands unless it is the JSON of one, which it is not
when it is malformed, has an object or nests too deeply, and only an argument without an equals
sign or a key is refused.  A sort term is read as its property, whatever colons are in it, and the
direction after the last of them, or as ascending when there is none. -/
theorem queries_carried :
    (∀ f : Filter, f.Writable → readFilter f.argument = .ok (f.fullKey, f.value)) ∧
    (∀ (entity : String) (fs : List Filter), (∀ f ∈ fs, f.Writable) → ∃ entries found,
      (fs.map Filter.argument).mapM readFilter = .ok entries ∧
      Filter.parseAll (SearchArguments.mk entity entries).params.entries = .ok found ∧
      Filter.Collected fs found) ∧
    (∀ key raw, '=' ∉ key.toList → Text.isBlank key = false →
      (∀ v, Value.ofJson raw = .ok v →
        readFilter (key ++ "=" ++ raw) = .ok (Text.trim key, v)) ∧
      ((∀ v, Value.ofJson raw ≠ .ok v) →
        readFilter (key ++ "=" ++ raw) = .ok (Text.trim key, .text raw))) ∧
    (∀ raw, Value.Unread raw → ∀ v, Value.ofJson raw ≠ .ok v) ∧
    (∀ s, (∃ message, readFilter s = .error message) ↔ '=' ∉ s.toList ∨
      ∃ key raw, s = key ++ "=" ++ raw ∧ '=' ∉ key.toList ∧ Text.trim key = "") ∧
    ∀ property, Text.isBlank property = false → Text.trim property = property →
      (∀ (d : Direction) word, Text.asciiLower word = d.name →
        readTerm (property ++ ":" ++ word) = .ok { property, direction := d, nulls := .native }) ∧
      (':' ∉ property.toList →
        readTerm property = .ok { property, direction := .asc, nulls := .native }) := by
  refine ⟨fun f h => readFilter_argument h, fun entity fs h => ?_, fun key raw hkey hblank => ?_,
    fun raw h => h.ofJson_ne, fun s => readFilter_eq_error, fun property hblank htrim => ?_⟩
  · obtain ⟨found, hfound, hcollected⟩ :=
      Filter.collected_of_paramsOf fun f hf => (h f hf).path
    exact ⟨fs.map Filter.entry, found, mapM_readFilter h, hfound, hcollected⟩
  · refine ⟨fun v hv => ?_, fun hnone => ?_⟩
    · rw [readFilter_of_key hkey hblank, Value.ofArgument_of_ofJson hv]
    · rw [readFilter_of_key hkey hblank, Value.ofArgument_text hnone]
  · refine ⟨fun d word hword => ?_, fun hcolon => ?_⟩
    · rw [readTerm_of_direction hblank hword, htrim]
    · rw [readTerm_of_not_mem hblank hcolon, htrim]

def listed : Filter :=
  ⟨"a.b", .isIn, .list [.text "x=1", .float (Double.ofRatio false 1 2)]⟩

def unlisted : Filter :=
  ⟨"a.b", .isIn, .null⟩

/-- A text of more opening brackets than are read. -/
def brackets : String :=
  String.ofList (List.replicate 128 '[')

theorem queries_carried_listed :
    readFilter listed.argument = .ok ("IN_a.b", listed.value) ∧
    (∃ entries found, ([unlisted, listed].map Filter.argument).mapM readFilter = .ok entries ∧
      Filter.parseAll (SearchArguments.mk "staff" entries).params.entries = .ok found ∧
      listed ∈ found ∧ unlisted ∉ found) ∧
    readFilter ("EQ_a " ++ "=" ++ Value.null.toJson) = .ok ("EQ_a", .null) ∧
    readFilter ("EQ_a " ++ "=" ++ (Json.Node.object []).compact) =
      .ok ("EQ_a", .text (Json.Node.object []).compact) ∧
    readFilter ("EQ_a " ++ "=" ++ brackets) = .ok ("EQ_a", .text brackets) ∧
    (∃ message, readFilter "EQ_a" = .error message) ∧
    readTerm ("a:b" ++ ":" ++ "DESC") = .ok ⟨"a:b", .desc, .native⟩ ∧
    readTerm "a.b" = .ok ⟨"a.b", .asc, .native⟩ := by
  obtain ⟨hread, hmany, hraw, hunread, hfails, hterm⟩ := queries_carried
  have hlast : ∀ c ∈ "a.b".toList.getLast?, Text.isSpace c = false := by
    rw [show "a.b".toList.getLast? = some 'b' by decide]
    rintro c ⟨⟩
    decide
  have hlisted : listed.Writable := ⟨by decide, by decide, hlast, by decide, by decide +kernel⟩
  have hunlisted : unlisted.Writable := ⟨by decide, by decide, hlast, by decide, by decide⟩
  have htrim : Text.trim "EQ_a " = "EQ_a" := by decide
  have hspaced := fun raw => hraw "EQ_a " raw (by decide) (by decide)
  rw [htrim] at hspaced
  have hobject : Value.Unread (Json.Node.object []).compact :=
    .object (Json.Node.all?_compact _) (by simp [Json.Node.tokens])
  have hbrackets : Value.Unread brackets := Value.unread_replicate (by decide)
  refine ⟨hread listed hlisted, ?_, (hspaced _).1 _ (Value.ofJson_toJson .null),
    (hspaced _).2 (hunread _ hobject), (hspaced _).2 (hunread _ hbrackets),
    (hfails _).mpr (.inl (by decide)), ?_, ?_⟩
  · obtain ⟨entries, found, hentries, hfound, hcollected⟩ := hmany "staff" [unlisted, listed]
      (List.forall_mem_cons.mpr ⟨hunlisted, List.forall_mem_singleton.mpr hlisted⟩)
    refine ⟨entries, found, hentries, hfound, ?_, fun hmem => ?_⟩
    · exact (hcollected.last _).mpr ⟨[unlisted], [], rfl, List.forall_mem_nil _⟩
    · obtain ⟨before, after, hsplit, hafter⟩ := (hcollected.last _).mp hmem
      rcases before with _ | ⟨_, _ | ⟨_, rest⟩⟩
      · cases hsplit
        exact hafter listed List.mem_cons_self rfl
      · simp [listed, unlisted] at hsplit
      · simp at hsplit
  · exact (hterm "a:b" (by decide) (by decide)).1 .desc "DESC" (by decide)
  · exact (hterm "a.b" (by decide) (by decide)).2 (by decide)

end Argument
end TableSearch
