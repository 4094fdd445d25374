/-
What the reader makes of a sequence of tokens.

The tokens of a tree are read as the tree, with its numbers as they are read and with
`unusable` in the place of a container inside 127 others (`ofText?_compact`).  In the other
direction `Step` says what one token can do, and two invariants follow from it, each for the
whole text: a property of every tree the reader completes (`ofText?_holds`), and a property
that a tree has as soon as a brace opens anywhere in its text (`ofText?_spoiled`).
-/
import TableSearch.Json.Reader
import TableSearch.Proofs.Json.Written

namespace TableSearch
namespace Json

open Progress (deepest scalar? begin? complete close)

variable {frames : List Frame} {items : List Parsed} {n : Parsed} {t : Token} {p q : Progress}

/-! ## Reading what was written -/

def Parsed.ofNumber : Option Number → Parsed
  | some (.int n) => .int n
  | some (.float x) => .float x
  | none => .unusable

namespace Node

mutual

/-- What is read of a tree inside a number of containers. -/
def seen (outer : ℕ) : Node → Parsed
  | .null => .null
  | .bool b => .bool b
  | .int n => .ofNumber (Number.ofNumeral (intNumeral n))
  | .float x => if x.isFinite then .float x.reread else .null
  | .string s => .string s
  | .array items => if outer < deepest then .array (itemsSeen (outer + 1) items) else .unusable
  | .object entries =>
      if outer < deepest then .object (entriesSeen (outer + 1) entries) else .unusable

def itemsSeen (outer : ℕ) : List Node → List Parsed
  | [] => []
  | item :: rest => item.seen outer :: itemsSeen outer rest

def entriesSeen (outer : ℕ) : List (String × Node) → List (Option String × Parsed)
  | [] => []
  | (key, value) :: rest => (some key, value.seen outer) :: entriesSeen outer rest

end

end Node

namespace Progress

theorem scalar?_number (o : Option Number) : scalar? (.number o) = some (.ofNumber o) := by
  match o with
  | none => rfl
  | some (.int _) => rfl
  | some (.float _) => rfl

theorem close_eq (n : Parsed) (frames : List Frame) :
    close n frames = complete (if frames.length < deepest then n else .unusable) frames := by
  have hempty : (frames.drop (deepest - 1)).isEmpty = true ↔ frames.length < deepest := by
    rw [List.isEmpty_iff, List.drop_eq_nil_iff, deepest]
    omega
  rw [close]
  by_cases h : frames.length < deepest
  · rw [if_pos h, if_pos (hempty.mpr h)]
  · rw [if_neg h, if_neg fun hdrop => h (hempty.mp hdrop)]

/-- The first token of a tree closes nothing. -/
theorem run?_arrayStart (n : Node) (ts : List Token) :
    run? (.arrayStart frames) (n.tokens ++ ts) =
      run? (.value (.array [] :: frames)) (n.tokens ++ ts) := by
  cases n with
  | float x =>
    show run? _ (floatToken x :: ts) = run? _ (floatToken x :: ts)
    unfold floatToken
    split <;> rfl
  | _ => rfl

theorem run?_arrayStart_items (item : Node) (items : List Node) (ts : List Token) :
    run? (.arrayStart frames) (Node.itemTokens (item :: items) ++ ts) =
      run? (.value (.array [] :: frames)) (Node.itemTokens (item :: items) ++ ts) := by
  cases items with
  | nil => exact run?_arrayStart item ts
  | cons next rest =>
    have htokens : Node.itemTokens (item :: next :: rest) ++ ts =
        item.tokens ++ (.comma :: Node.itemTokens (next :: rest) ++ ts) := by
      simp [Node.itemTokens]
    rw [htokens]
    exact run?_arrayStart item _

theorem run?_objectStart (entry : String × Node) (entries : List (String × Node))
    (ts : List Token) :
    run? (.objectStart frames) (Node.entryTokens (entry :: entries) ++ ts) =
      run? (.entryStart [] frames) (Node.entryTokens (entry :: entries) ++ ts) := by
  cases entries <;> rfl

mutual

/-- The tokens of a tree are read as the tree. -/
theorem run?_tokens (n : Node) (frames : List Frame) (ts : List Token) :
    run? (.value frames) (n.tokens ++ ts) = run? (complete (n.seen frames.length) frames) ts := by
  match n with
  | .null => rfl
  | .bool b => rfl
  | .int n =>
    show ((scalar? _).map fun n => complete n frames).bind (fun q => q.run? ts) = _
    rw [scalar?_number]
    rfl
  | .float x =>
    show run? _ (floatToken x :: ts) = _
    unfold floatToken Node.seen
    split <;> rfl
  | .string s => rfl
  | .array [] =>
    show run? (close (.array []) frames) ts = _
    rw [close_eq]
    rfl
  | .array (item :: items) =>
    have htokens : (Node.array (item :: items)).tokens ++ ts =
        .openArray :: (Node.itemTokens (item :: items) ++ .closeArray :: ts) := by
      simp [Node.tokens]
    rw [htokens]
    show run? (.arrayStart frames) _ = _
    rw [run?_arrayStart_items, run?_itemTokens (item :: items) (List.cons_ne_nil _ _), close_eq]
    rfl
  | .object [] =>
    show run? (close (.object []) frames) ts = _
    rw [close_eq]
    rfl
  | .object ((key, v) :: entries) =>
    have htokens : (Node.object ((key, v) :: entries)).tokens ++ ts =
        .openObject :: (Node.entryTokens ((key, v) :: entries) ++ .closeObject :: ts) := by
      simp [Node.tokens]
    rw [htokens]
    show run? (.objectStart frames) _ = _
    rw [run?_objectStart, run?_entryTokens ((key, v) :: entries) (List.cons_ne_nil _ _),
      close_eq]
    rfl

/-- The tokens of items are read as the items. -/
theorem run?_itemTokens (items : List Node) (hne : items ≠ []) (done : List Parsed)
    (frames : List Frame) (ts : List Token) :
    run? (.value (.array done :: frames)) (Node.itemTokens items ++ .closeArray :: ts) =
      run? (close (.array (done.reverse ++ Node.itemsSeen (frames.length + 1) items)) frames)
        ts := by
  match items with
  | [] => exact absurd rfl hne
  | [item] =>
    rw [Node.itemTokens, run?_tokens item]
    show run? (close (.array (item.seen (frames.length + 1) :: done).reverse) frames) ts = _
    rw [List.reverse_cons]
    rfl
  | item :: next :: rest =>
    have htokens : Node.itemTokens (item :: next :: rest) ++ .closeArray :: ts =
        item.tokens ++ (.comma :: (Node.itemTokens (next :: rest) ++ .closeArray :: ts)) := by
      simp [Node.itemTokens]
    rw [htokens, run?_tokens item]
    show run? (.value (.array (item.seen (frames.length + 1) :: done) :: frames)) _ = _
    rw [run?_itemTokens (next :: rest) (List.cons_ne_nil _ _), List.reverse_cons,
      List.append_assoc]
    rfl

/-- The tokens of entries are read as the entries. -/
theorem run?_entryTokens (entries : List (String × Node)) (hne : entries ≠ [])
    (done : List (Option String × Parsed)) (frames : List Frame) (ts : List Token) :
    run? (.entryStart done frames) (Node.entryTokens entries ++ .closeObject :: ts) =
      run? (close (.object (done.reverse ++ Node.entriesSeen (frames.length + 1) entries)) frames)
        ts := by
  match entries with
  | [] => exact absurd rfl hne
  | [(key, v)] =>
    have htokens : Node.entryTokens [(key, v)] ++ .closeObject :: ts =
        .string (some key) :: .colon :: (v.tokens ++ .closeObject :: ts) := by
      simp [Node.entryTokens]
    rw [htokens]
    show run? (.value (.object done (some key) :: frames)) _ = _
    rw [run?_tokens v]
    show run? (close (.object ((some key, v.seen (frames.length + 1)) :: done).reverse)
      frames) ts = _
    rw [List.reverse_cons]
    rfl
  | (key, v) :: next :: rest =>
    have htokens : Node.entryTokens ((key, v) :: next :: rest) ++ .closeObject :: ts =
        .string (some key) :: .colon ::
          (v.tokens ++ (.comma :: (Node.entryTokens (next :: rest) ++ .closeObject :: ts))) := by
      simp [Node.entryTokens]
    rw [htokens]
    show run? (.value (.object done (some key) :: frames)) _ = _
    rw [run?_tokens v]
    show run? (.entryStart ((some key, v.seen (frames.length + 1)) :: done) frames) _ = _
    rw [run?_entryTokens (next :: rest) (List.cons_ne_nil _ _), List.reverse_cons,
      List.append_assoc]
    rfl

end

end Progress

/-- A text with the tokens of a tree is read as what is seen of the tree. -/
theorem ofText?_of_tokens {text : String} {n : Node} (h : Token.all? text.toList = some n.tokens) :
    Parsed.ofText? text = some (n.seen 0) := by
  have hrun : Progress.run? (.value []) n.tokens = some (.done (n.seen 0)) := by
    have hread := Progress.run?_tokens n [] []
    rw [List.append_nil] at hread
    rw [hread]
    rfl
  rw [Parsed.ofText?, h]
  show (Progress.run? (.value []) n.tokens).bind _ = _
  rw [hrun]
  rfl

theorem ofText?_compact (n : Node) : Parsed.ofText? n.compact = some (n.seen 0) :=
  ofText?_of_tokens n.all?_compact

/-! ## Tokens of a text -/

namespace Token

def IsFinite : Token → Prop
  | .number (some (.float x)) => x.isFinite = true
  | _ => True

theorem isFinite_first? {cs rest : List Char} (h : first? cs = some (t, rest)) : t.IsFinite := by
  unfold first? at h
  split at h
  case h_10 =>
    obtain ⟨r, _, hr⟩ := Option.map_eq_some_iff.mp h
    cases hr
    trivial
  case h_11 =>
    obtain ⟨r, _, hr⟩ := Option.map_eq_some_iff.mp h
    cases hr
    cases hnumber : Number.ofNumeral r.1 with
    | none => trivial
    | some number =>
      cases number with
      | int => trivial
      | float x => exact Number.isFinite_ofNumeral hnumber
  all_goals
    cases h
    trivial

theorem isFinite_all? {cs : List Char} {ts : List Token} (h : all? cs = some ts) :
    ∀ t ∈ ts, t.IsFinite := by
  fun_induction all? cs generalizing ts with
  | case1 =>
    cases h
    exact List.forall_mem_nil _
  | case2 c rest _ ih => exact ih h
  | case3 => cases h
  | case4 c rest _ t after hfirst ih =>
    obtain ⟨us, hus, rfl⟩ := Option.map_eq_some_iff.mp h
    exact List.forall_mem_cons.mpr ⟨isFinite_first? hfirst, ih hus⟩

end Token

/-! ## What a step can do -/

inductive Step : Progress → Token → Progress → Prop where
  | scalar {t : Token} {n : Parsed} (frames : List Frame) (h : scalar? t = some n) :
      Step (.value frames) t (complete n frames)
  | openArray (frames : List Frame) : Step (.value frames) .openArray (.arrayStart frames)
  | openObject (frames : List Frame) : Step (.value frames) .openObject (.objectStart frames)
  | noItems (frames : List Frame) :
      Step (.arrayStart frames) .closeArray (close (.array []) frames)
  | firstItem {t : Token} {q : Progress} {frames : List Frame}
      (h : Step (.value (.array [] :: frames)) t q) : Step (.arrayStart frames) t q
  | nextItem (items : List Parsed) (frames : List Frame) :
      Step (.afterItem items frames) .comma (.value (.array items :: frames))
  | closeArray (items : List Parsed) (frames : List Frame) :
      Step (.afterItem items frames) .closeArray (close (.array items.reverse) frames)
  | noEntries (frames : List Frame) :
      Step (.objectStart frames) .closeObject (close (.object []) frames)
  | firstKey (key : Option String) (frames : List Frame) :
      Step (.objectStart frames) (.string key) (.colon [] key frames)
  | nextKey (entries : List (Option String × Parsed)) (key : Option String)
      (frames : List Frame) :
      Step (.entryStart entries frames) (.string key) (.colon entries key frames)
  | colon (entries : List (Option String × Parsed)) (key : Option String)
      (frames : List Frame) :
      Step (.colon entries key frames) .colon (.value (.object entries key :: frames))
  | nextEntry (entries : List (Option String × Parsed)) (frames : List Frame) :
      Step (.afterEntry entries frames) .comma (.entryStart entries frames)
  | closeObject (entries : List (Option String × Parsed)) (frames : List Frame) :
      Step (.afterEntry entries frames) .closeObject (close (.object entries.reverse) frames)

theorem Step.of_begin? (h : begin? frames t = some q) : Step (.value frames) t q := by
  unfold begin? at h
  split at h
  · cases h
    exact .openArray frames
  · cases h
    exact .openObject frames
  · obtain ⟨n, hn, rfl⟩ := Option.map_eq_some_iff.mp h
    exact .scalar frames hn

theorem Step.of_step? (h : p.step? t = some q) : Step p t q := by
  unfold Progress.step? at h
  split at h
  case h_1 => exact .of_begin? h
  case h_3 => exact .firstItem (.of_begin? h)
  case h_12 => cases h
  all_goals
    cases h
    constructor

/-! ## What holds of every tree that was read -/

/-- A property of the trees at each depth that the reader keeps as it goes.  Of an object it
must hold whatever the entries are. -/
structure Kept (P : ℕ → Parsed → Prop) : Prop where
  scalar : ∀ {t n} (depth : ℕ), t.IsFinite → scalar? t = some n → P depth n
  array : ∀ {items} {depth : ℕ}, depth < deepest → (∀ n ∈ items, P (depth + 1) n) →
    P depth (.array items)
  object : ∀ entries (depth : ℕ), P depth (.object entries)
  unusable : ∀ depth, P depth .unusable

def AllHold (P : ℕ → Parsed → Prop) : List Frame → Prop
  | [] => True
  | .array items :: frames => (∀ n ∈ items, P (frames.length + 1) n) ∧ AllHold P frames
  | .object _ _ :: frames => AllHold P frames

def Progress.Holds (P : ℕ → Parsed → Prop) : Progress → Prop
  | .value frames => AllHold P frames
  | .arrayStart frames => AllHold P frames
  | .afterItem items frames => (∀ n ∈ items, P (frames.length + 1) n) ∧ AllHold P frames
  | .objectStart frames => AllHold P frames
  | .entryStart _ frames => AllHold P frames
  | .colon _ _ frames => AllHold P frames
  | .afterEntry _ frames => AllHold P frames
  | .done n => P 0 n

variable {P : ℕ → Parsed → Prop}

theorem holds_complete (hn : P frames.length n) (h : AllHold P frames) :
    (complete n frames).Holds P := by
  match frames, h with
  | [], _ => exact hn
  | .array items :: frames, h =>
    refine ⟨fun m hm => ?_, h.2⟩
    rcases List.mem_cons.mp hm with rfl | hm
    · exact hn
    · exact h.1 m hm
  | .object _ _ :: frames, h => exact h

theorem Kept.close (hP : Kept P) (hn : frames.length < deepest → P frames.length n)
    (h : AllHold P frames) : (close n frames).Holds P := by
  rw [Progress.close_eq]
  split
  · next hless => exact holds_complete (hn hless) h
  · exact holds_complete (hP.unusable _) h

theorem Kept.step (hP : Kept P) (ht : t.IsFinite) (h : Step p t q) (hp : p.Holds P) :
    q.Holds P := by
  induction h with
  | scalar frames h => exact holds_complete (hP.scalar _ ht h) hp
  | openArray | openObject => exact hp
  | noItems => exact hP.close (fun hless => hP.array hless (List.forall_mem_nil _)) hp
  | firstItem _ ih => exact ih ht ⟨List.forall_mem_nil _, hp⟩
  | nextItem => exact hp
  | closeArray =>
    exact hP.close (fun hless => hP.array hless fun n hn => hp.1 n (List.mem_reverse.mp hn)) hp.2
  | noEntries => exact hP.close (fun _ => hP.object _ _) hp
  | firstKey | nextKey | colon | nextEntry => exact hp
  | closeObject => exact hP.close (fun _ => hP.object _ _) hp

theorem Kept.run (hP : Kept P) {ts : List Token} (hts : ∀ t ∈ ts, t.IsFinite)
    (h : p.run? ts = some q) (hp : p.Holds P) : q.Holds P := by
  induction ts generalizing p with
  | nil =>
    cases h
    exact hp
  | cons t ts ih =>
    obtain ⟨r, hr, hq⟩ := Option.bind_eq_some_iff.mp h
    exact ih (fun u hu => hts u (List.mem_cons_of_mem t hu)) hq
      (hP.step (hts t List.mem_cons_self) (.of_step? hr) hp)

theorem ofText?_eq_some {text : String} (h : Parsed.ofText? text = some n) :
    ∃ ts, Token.all? text.toList = some ts ∧ Progress.run? (.value []) ts = some (.done n) := by
  obtain ⟨ts, hts, h⟩ := Option.bind_eq_some_iff.mp h
  obtain ⟨p, hp, h⟩ := Option.bind_eq_some_iff.mp h
  refine ⟨ts, hts, hp.trans ?_⟩
  cases p with
  | done m =>
    cases h
    rfl
  | _ => cases h

/-- What the reader keeps holds of the tree of a text. -/
theorem ofText?_holds (hP : Kept P) {text : String} (h : Parsed.ofText? text = some n) :
    P 0 n := by
  obtain ⟨ts, hts, hrun⟩ := ofText?_eq_some h
  exact hP.run (Token.isFinite_all? hts) hrun trivial

/-! ## Texts with an object -/

/-- A property of trees that objects have, and that goes from an item to its array. -/
structure Spreads (Q : Parsed → Prop) : Prop where
  array : ∀ {items}, (∃ n ∈ items, Q n) → Q (.array items)
  object : ∀ entries, Q (.object entries)
  unusable : Q .unusable

/-- Some container is an object, or has an item with the property. -/
def SomeHolds (Q : Parsed → Prop) : List Frame → Prop
  | [] => False
  | .array items :: frames => (∃ n ∈ items, Q n) ∨ SomeHolds Q frames
  | .object _ _ :: _ => True

def Progress.Spoiled (Q : Parsed → Prop) : Progress → Prop
  | .value frames => SomeHolds Q frames
  | .arrayStart frames => SomeHolds Q frames
  | .afterItem items frames => (∃ n ∈ items, Q n) ∨ SomeHolds Q frames
  | .objectStart _ => True
  | .entryStart _ _ => True
  | .colon _ _ _ => True
  | .afterEntry _ _ => True
  | .done n => Q n

variable {Q : Parsed → Prop}

theorem spoiled_complete (h : Q n ∨ SomeHolds Q frames) : (complete n frames).Spoiled Q := by
  match frames, h with
  | [], .inl hn => exact hn
  | .array _ :: _, .inl hn => exact .inl ⟨n, List.mem_cons_self, hn⟩
  | .array _ :: _, .inr (.inl ⟨m, hm, hQ⟩) => exact .inl ⟨m, List.mem_cons_of_mem n hm, hQ⟩
  | .array _ :: _, .inr (.inr h) => exact .inr h
  | .object _ _ :: _, _ => trivial

theorem Spreads.close (hQ : Spreads Q) (h : Q n ∨ SomeHolds Q frames) :
    (close n frames).Spoiled Q := by
  rw [Progress.close_eq]
  refine spoiled_complete (h.imp_left fun hn => ?_)
  split
  · exact hn
  · exact hQ.unusable

theorem Spreads.step (hQ : Spreads Q) (h : Step p t q) (hp : p.Spoiled Q) : q.Spoiled Q := by
  induction h with
  | scalar => exact spoiled_complete (.inr hp)
  | openArray => exact hp
  | openObject => trivial
  | noItems => exact hQ.close (.inr hp)
  | firstItem _ ih => exact ih (.inr hp)
  | nextItem => exact hp
  | closeArray =>
    refine hQ.close (hp.imp_left fun ⟨n, hn, hQn⟩ => ?_)
    exact hQ.array ⟨n, List.mem_reverse.mpr hn, hQn⟩
  | noEntries => exact hQ.close (.inl (hQ.object _))
  | firstKey | nextKey | colon | nextEntry => trivial
  | closeObject => exact hQ.close (.inl (hQ.object _))

theorem Spreads.run (hQ : Spreads Q) {ts : List Token} (h : p.run? ts = some q)
    (hp : p.Spoiled Q) : q.Spoiled Q := by
  induction ts generalizing p with
  | nil =>
    cases h
    exact hp
  | cons t ts ih =>
    obtain ⟨r, hr, hq⟩ := Option.bind_eq_some_iff.mp h
    exact ih hq (hQ.step (.of_step? hr) hp)

/-- An opening brace spoils whatever comes after it. -/
theorem spoiled_openObject (h : Step p .openObject q) : q.Spoiled Q := by
  generalize ht : Token.openObject = t at h
  induction h with
  | scalar _ h =>
    subst ht
    cases h
  | openObject => trivial
  | firstItem _ ih => exact ih ht
  | _ => cases ht

/-- The tree of a text with an opening brace in it has every property that spreads. -/
theorem ofText?_spoiled (hQ : Spreads Q) {text : String} {ts : List Token}
    (hts : Token.all? text.toList = some ts) (hmem : .openObject ∈ ts)
    (h : Parsed.ofText? text = some n) : Q n := by
  obtain ⟨us, hus, hrun⟩ := ofText?_eq_some h
  cases hts.symm.trans hus
  obtain ⟨before, after, rfl⟩ := List.append_of_mem hmem
  rw [Progress.run?_append] at hrun
  obtain ⟨p, _, hrun⟩ := Option.bind_eq_some_iff.mp hrun
  obtain ⟨q, hq, hrun⟩ := Option.bind_eq_some_iff.mp hrun
  exact hQ.run hrun (spoiled_openObject (.of_step? hq))

end Json
end TableSearch
