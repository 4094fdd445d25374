/-
Filters among the parameters of a request.

The parameters are taken one after another, and each can only set the entry of its own name
(`get?_takeRequest`).  So what stands under a key was said by the last parameter of its name that
has a value, and the parameters of other names have no part in it.  Search parameters that are
written into a request therefore come back from it, wherever they stand: `requests_extracted`.
-/
import TableSearch.Filter.Request
import TableSearch.Proofs.Keyed
import TableSearch.Proofs.Text.Parts

namespace TableSearch
namespace SearchParams

variable {start k name : String} {texts : List String} {v : Value} {p : String × List String}
  {request request' : List (String × List String)} {params : SearchParams}

/-! ## One parameter -/

/-- What the texts of a parameter are taken for: one for itself, and more for the list of them. -/
inductive Gives : List String → Value → Prop where
  | one (s : String) : Gives [s] (.text s)
  | many (texts : List String) (h : 2 ≤ texts.length) : Gives texts (.list (texts.map .text))

theorem requestValue?_eq_some : requestValue? texts = some v ↔ Gives texts v := by
  constructor
  · intro h
    match texts, h with
    | [s], h =>
      cases h
      exact .one s
    | s :: t :: rest, h =>
      cases h
      exact .many (s :: t :: rest) (Nat.le_add_left 2 rest.length)
  · intro h
    cases h with
    | one s => rfl
    | many _ h =>
      match texts, h with
      | s :: t :: rest, _ => rfl

theorem requestValue?_eq_none : requestValue? texts = none ↔ texts = [] := by
  match texts with
  | [] => simp [requestValue?]
  | [s] => simp [requestValue?]
  | s :: t :: rest => simp [requestValue?]

def said? (start k : String) (p : String × List String) : Option Value :=
  if p.1 = start ++ k then requestValue? p.2 else none

theorem said?_eq_some : said? start k p = some v ↔ p.1 = start ++ k ∧ Gives p.2 v := by
  rw [← requestValue?_eq_some]
  by_cases h : p.1 = start ++ k <;> simp [said?, h]

theorem said?_eq_none : said? start k p = none ↔ (p.1 = start ++ k → p.2 = []) := by
  rw [← requestValue?_eq_none]
  by_cases h : p.1 = start ++ k <;> simp [said?, h]

/-- A parameter sets the entry of its own name, and leaves all others. -/
theorem get?_takeRequest : (takeRequest start params p).get? k =
    (said? start k p).or (params.get? k) := by
  unfold takeRequest said?
  cases hkey : Text.dropStart? start p.1 with
  | none =>
    have hname : p.1 ≠ start ++ k := by
      intro h
      rw [Text.dropStart?_eq_some.mpr h] at hkey
      cases hkey
    rw [if_neg hname, Option.none_or]
  | some key =>
    have hname := Text.dropStart?_eq_some.mp hkey
    have hsame : p.1 = start ++ k ↔ key = k := by
      rw [hname, String.append_right_inj]
    cases hvalue : requestValue? p.2 with
    | none => rw [ite_self, Option.none_or]
    | some value =>
      dsimp only
      rw [Dict.get?_set]
      by_cases hk : key = k
      · rw [if_pos hk, if_pos (hsame.mpr hk), Option.some_or]
      · rw [if_neg hk, if_neg fun h => hk (hsame.mp h), Option.none_or]

/-! ## All parameters -/

theorem get?_foldl_takeRequest (params : SearchParams) :
    (request.foldl (takeRequest start) params).get? k =
      (request.reverse.findSome? (said? start k)).or (params.get? k) := by
  induction request generalizing params with
  | nil => rfl
  | cons p rest ih =>
    rw [List.foldl_cons, ih, get?_takeRequest, List.reverse_cons, List.findSome?_append,
      Option.or_assoc, List.findSome?_singleton]

/-- What stands under a key is what the last parameter says that says anything of it. -/
theorem get?_ofRequest :
    (ofRequest request start).get? k = request.reverse.findSome? (said? start k) :=
  (get?_foldl_takeRequest Keyed.empty).trans Option.or_none

theorem get?_ofRequest_eq_some : (ofRequest request start).get? k = some v ↔
    ∃ before texts after, request = before ++ (start ++ k, texts) :: after ∧ Gives texts v ∧
      ∀ later ∈ after, later.1 = start ++ k → later.2 = [] := by
  rw [get?_ofRequest, List.findSome?_eq_some_iff]
  simp only [said?_eq_some, said?_eq_none]
  constructor
  · rintro ⟨after, ⟨_, texts⟩, before, hsplit, ⟨rfl, hgives⟩, hafter⟩
    refine ⟨before.reverse, texts, after.reverse, ?_, hgives,
      fun later hlater => hafter later (List.mem_reverse.mp hlater)⟩
    rw [← List.reverse_reverse request, hsplit]
    simp
  · rintro ⟨before, texts, after, rfl, hgives, hafter⟩
    exact ⟨after.reverse, (start ++ k, texts), before.reverse, by simp, ⟨rfl, hgives⟩,
      fun later hlater => hafter later (List.mem_reverse.mp hlater)⟩

theorem mem_keys_ofRequest : k ∈ (ofRequest request start).keys ↔
    ∃ texts, (start ++ k, texts) ∈ request ∧ texts ≠ [] := by
  have hsaid : ∀ p, (said? start k p).isSome = true ↔ p.1 = start ++ k ∧ p.2 ≠ [] := by
    intro p
    rw [← Option.not_isNone, Bool.not_eq_true', ← Bool.not_eq_true, Option.isNone_iff_eq_none,
      said?_eq_none, Classical.not_imp]
  rw [Dict.mem_keys, get?_ofRequest, ← Option.isSome_iff_exists, List.findSome?_isSome_iff]
  simp only [hsaid, List.mem_reverse]
  constructor
  · rintro ⟨⟨_, texts⟩, hmem, rfl, htexts⟩
    exact ⟨texts, hmem, htexts⟩
  · rintro ⟨texts, hmem, htexts⟩
    exact ⟨(start ++ k, texts), hmem, rfl, htexts⟩

/-- The parameters of a name alone decide what stands under its key. -/
theorem get?_ofRequest_named : (ofRequest request start).get? k =
    (request.filter fun p => p.1 == start ++ k).reverse.findSome? fun p => requestValue? p.2 := by
  have hsaid : said? start k =
      fun p => if (p.1 == start ++ k) = true then requestValue? p.2 else none := by
    funext p
    simp only [said?, beq_iff_eq]
  rw [get?_ofRequest, hsaid, ← List.head?_filterMap, ← List.head?_filterMap, ← List.filter_reverse,
    List.filterMap_filter]

/-- The parameters whose names lack the prefix have no influence. -/
theorem ofRequest_filter (request : List (String × List String)) (start : String) :
    ofRequest (request.filter fun p => Text.startsWith start p.1) start =
      ofRequest request start := by
  refine Dict.ext_get? fun k => ?_
  have hnamed : (request.filter fun p => p.1 == start ++ k && Text.startsWith start p.1) =
      request.filter fun p => p.1 == start ++ k := by
    refine List.filter_congr fun p _ => ?_
    by_cases h : p.1 = start ++ k
    · rw [h, Text.startsWith_append, Bool.and_true]
    · rw [beq_eq_false_iff_ne.mpr h, Bool.false_and]
  rw [get?_ofRequest_named, get?_ofRequest_named, List.filter_filter, hnamed]

/-! ## Search parameters in a request -/

def textsOf : Value → List String
  | .text s => [s]
  | .list items => items.filterMap fun
      | .text s => some s
      | _ => none
  | _ => []

theorem Gives.textsOf_eq (h : Gives texts v) : textsOf v = texts := by
  cases h with
  | one s => rfl
  | many _ h => simp [textsOf, List.filterMap_map]

def parameterOf (start : String) (entry : String × Value) : String × List String :=
  (start ++ entry.1, textsOf entry.2)

/-- Entries that are written into a request come back, in whatever order and wherever they
stand. -/
theorem ofRequest_written (hvalues : ∀ entry ∈ params.entries, ∃ texts, Gives texts entry.2)
    (hwritten : (request.filter fun p => Text.startsWith start p.1).Perm
      (params.entries.map (parameterOf start))) : ofRequest request start = params := by
  have heach : ∀ k v, (k, v) ∈ params.entries →
      said? start k (parameterOf start (k, v)) = some v := by
    intro k v hmem
    obtain ⟨texts, hgives⟩ := hvalues (k, v) hmem
    refine said?_eq_some.mpr ⟨rfl, ?_⟩
    show Gives (textsOf v) v
    rw [hgives.textsOf_eq]
    exact hgives
  rw [← ofRequest_filter]
  refine Dict.ext_get? fun k => ?_
  rw [get?_ofRequest]
  cases hfound : (request.filter fun p => Text.startsWith start p.1).reverse.findSome?
      (said? start k) with
  | some v =>
    -- Only the parameter of an entry says anything, and it says what the entry holds.
    obtain ⟨p, hp, hsaid⟩ := List.exists_of_findSome?_eq_some hfound
    obtain ⟨⟨l, w⟩, hmem, rfl⟩ := List.mem_map.mp (hwritten.mem_iff.mp (List.mem_reverse.mp hp))
    obtain rfl : l = k := (String.append_right_inj start).mp (said?_eq_some.mp hsaid).1
    rw [heach l w hmem] at hsaid
    cases hsaid
    exact (Dict.get?_eq_some.mpr hmem).symm
  | none =>
    cases hget : params.get? k with
    | none => rfl
    | some v =>
      have hmem := Dict.get?_eq_some.mp hget
      have hin := hwritten.mem_iff.mpr (List.mem_map_of_mem (f := parameterOf start) hmem)
      have hsilent := List.findSome?_eq_none_iff.mp hfound _ (List.mem_reverse.mpr hin)
      rw [heach k v hmem] at hsilent
      cases hsilent

/-- Request parameters are extracted without loss.  A key is there when some parameter of its name
has a value, and its entry is what the last such parameter gives; parameters of other names count
for nothing, whether they lack the prefix or not.  Search parameters that hold texts, and lists of
at least two, are written into a request and come back, in any order and among any parameters
that lack the prefix. -/
theorem requests_extracted :
    (∀ request start k, k ∈ (ofRequest request start).keys ↔
      ∃ texts, (start ++ k, texts) ∈ request ∧ texts ≠ []) ∧
    (∀ request start k v, (ofRequest request start).get? k = some v ↔ ∃ before texts after,
      request = before ++ (start ++ k, texts) :: after ∧ Gives texts v ∧
        ∀ later ∈ after, later.1 = start ++ k → later.2 = []) ∧
    (∀ request request' start k,
      (request.filter fun p => p.1 == start ++ k) = (request'.filter fun p => p.1 == start ++ k) →
        (ofRequest request start).get? k = (ofRequest request' start).get? k) ∧
    (∀ request start, ofRequest (request.filter fun p => Text.startsWith start p.1) start =
      ofRequest request start) ∧
    ∀ (params : SearchParams) request start,
      (∀ entry ∈ params.entries, ∃ texts, Gives texts entry.2) →
      (request.filter fun p => Text.startsWith start p.1).Perm
        (params.entries.map (parameterOf start)) →
      ofRequest request start = params := by
  refine ⟨fun _ _ _ => mem_keys_ofRequest, fun _ _ _ _ => get?_ofRequest_eq_some,
    fun request request' start k hnamed => ?_, ofRequest_filter,
    fun _ _ _ hvalues hwritten => ofRequest_written hvalues hwritten⟩
  rw [get?_ofRequest_named, get?_ofRequest_named, hnamed]

def activeAnn : SearchParams :=
  Dict.set (Dict.set Keyed.empty "EQ_name" (.text "ann")) "IN_status" (.list [.text "A", .text "B"])

def twice : List (String × List String) :=
  [("search_EQ_name", ["ann"]), ("search_EQ_name", ["bob"]), ("EQ_name", ["eve"]),
    ("search_EQ_name", [])]

/-- The second value counts, with or without the parameter that lacks the prefix; and search
parameters come back from between others and in another order. -/
theorem requests_extracted_search :
    (ofRequest twice requestPrefix).get? "EQ_name" = some (.text "bob") ∧
    (ofRequest twice requestPrefix).get? "EQ_name" =
      (ofRequest (twice.eraseIdx 2) requestPrefix).get? "EQ_name" ∧
    ofRequest [("search_IN_status", ["A", "B"]), ("page", ["2"]), ("search_EQ_name", ["ann"])]
      requestPrefix = activeAnn := by
  obtain ⟨_, hlast, hnamed, _, hback⟩ := requests_extracted
  have hentries : activeAnn.entries =
      [("EQ_name", .text "ann"), ("IN_status", .list [.text "A", .text "B"])] := by
    rfl
  refine ⟨(hlast _ _ _ _).mpr ⟨[("search_EQ_name", ["ann"])], ["bob"],
    [("EQ_name", ["eve"]), ("search_EQ_name", [])], by decide, .one "bob", by decide⟩,
    hnamed _ _ _ _ (by decide), hback _ _ _ ?_ (by decide +kernel)⟩
  rw [hentries]
  exact List.forall_mem_cons.mpr ⟨⟨_, .one "ann"⟩,
    List.forall_mem_singleton.mpr ⟨_, .many ["A", "B"] (by decide)⟩⟩

end SearchParams
end TableSearch
