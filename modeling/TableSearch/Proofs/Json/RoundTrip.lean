/-
Values that are written as JSON and read again.

`ofJson_toJson` says what comes back of every value: the value with its floats as they are
read, or a fault where lists lie in each other more deeply than the reader goes.  A value that
was read from a text lies within that depth and has finite floats only (`ofJson_bounded`), so
it comes back as well, and a text with an object in it is not read (`ofJson_object`).
`json_round_trip` puts them together.
-/
import TableSearch.Proofs.Json.Reading
import TableSearch.Proofs.Success
import TableSearch.Value

namespace TableSearch
namespace Value

open Json (Fault Parsed Token)
open Json.Progress (deepest)
open Success (bind_eq_ok map_eq_ok)

variable {f g : Double → Value}

/-! ## Depth and floats -/

mutual

def depth : Value → ℕ
  | .list items => depthItems items + 1
  | _ => 0

def depthItems : List Value → ℕ
  | [] => 0
  | item :: rest => max item.depth (depthItems rest)

end

mutual

def floats : Value → List Double
  | .float x => [x]
  | .list items => floatItems items
  | _ => []

def floatItems : List Value → List Double
  | [] => []
  | item :: rest => item.floats ++ floatItems rest

end

mutual

def mapFloats (f : Double → Value) : Value → Value
  | .float x => f x
  | .list items => .list (mapFloatItems f items)
  | v => v

def mapFloatItems (f : Double → Value) : List Value → List Value
  | [] => []
  | item :: rest => item.mapFloats f :: mapFloatItems f rest

end

mutual

theorem mapFloats_congr (v : Value) (h : ∀ x ∈ v.floats, f x = g x) :
    v.mapFloats f = v.mapFloats g := by
  match v with
  | .float x => exact h x List.mem_cons_self
  | .list items => exact congrArg list (mapFloatItems_congr items h)
  | .null | .bool _ | .int _ | .text _ => rfl

theorem mapFloatItems_congr (items : List Value) (h : ∀ x ∈ floatItems items, f x = g x) :
    mapFloatItems f items = mapFloatItems g items := by
  match items with
  | [] => rfl
  | item :: rest =>
    rw [mapFloatItems, mapFloatItems,
      mapFloats_congr item fun x hx => h x (List.mem_append_left _ hx),
      mapFloatItems_congr rest fun x hx => h x (List.mem_append_right _ hx)]

end

mutual

theorem mapFloats_float (v : Value) : v.mapFloats .float = v := by
  match v with
  | .list items => exact congrArg list (mapFloatItems_float items)
  | .null | .bool _ | .int _ | .float _ | .text _ => rfl

theorem mapFloatItems_float (items : List Value) : mapFloatItems .float items = items := by
  match items with
  | [] => rfl
  | item :: rest => rw [mapFloatItems, mapFloats_float item, mapFloatItems_float rest]

end

/-! ## What comes back -/

/-- What comes back of a float: a float for a finite one, and null for any other. -/
def survivor (x : Double) : Value :=
  if x.isFinite then .float x.reread else .null

mutual

/-- What is read of a value inside other lists. -/
theorem ofParsed_seen (v : Value) {outer : ℕ} (h : outer ≤ deepest) :
    ofParsed (v.toNode.seen outer) =
      if outer + v.depth ≤ deepest then .ok (v.mapFloats survivor) else .error .malformed := by
  match v with
  | .null => exact (if_pos h).symm
  | .bool b => exact (if_pos h).symm
  | .int n =>
    have hint : Json.Number.ofNumeral (Json.intNumeral n.toInt) = some (.int n.toInt) :=
      Json.ofNumeral_intNumeral n.le_toInt n.toInt_lt
    rw [toNode, Json.Node.seen, hint]
    show Except.ok (Value.int (Int64.ofInt n.toInt)) = _
    rw [Int64.ofInt_toInt]
    exact (if_pos h).symm
  | .float x =>
    show ofParsed (if x.isFinite then .float x.reread else .null) =
      if outer ≤ deepest then .ok (survivor x) else .error .malformed
    rw [if_pos h, survivor]
    split <;> rfl
  | .text s => exact (if_pos h).symm
  | .list items =>
    rw [toNode, Json.Node.seen, depth, mapFloats]
    by_cases hless : outer < deepest
    · have hsame : outer + 1 + depthItems items = outer + (depthItems items + 1) := by omega
      rw [if_pos hless, ofParsed, ofParsedItems_seen items (Nat.succ_le_of_lt hless), hsame]
      split <;> rfl
    · rw [if_neg hless, if_neg (by omega), ofParsed]

theorem ofParsedItems_seen (items : List Value) {outer : ℕ} (h : outer ≤ deepest) :
    ofParsedItems (Json.Node.itemsSeen outer (toNodes items)) =
      if outer + depthItems items ≤ deepest then .ok (mapFloatItems survivor items)
      else .error .malformed := by
  match items with
  | [] => exact (if_pos h).symm
  | item :: rest =>
    rw [toNodes, Json.Node.itemsSeen, ofParsedItems, ofParsed_seen item h,
      ofParsedItems_seen rest h, depthItems]
    have hmax : outer + max item.depth (depthItems rest) ≤ deepest ↔
        outer + item.depth ≤ deepest ∧ outer + depthItems rest ≤ deepest := by omega
    by_cases hitem : outer + item.depth ≤ deepest
    · by_cases hrest : outer + depthItems rest ≤ deepest
      · rw [if_pos hitem, if_pos hrest, if_pos (hmax.mpr ⟨hitem, hrest⟩)]
        rfl
      · rw [if_pos hitem, if_neg hrest, if_neg fun h => hrest (hmax.mp h).2]
        rfl
    · rw [if_neg hitem, if_neg fun h => hitem (hmax.mp h).1]
      rfl

end

/-- A value comes back with its floats as they are read, unless it is too deep. -/
theorem ofJson_toJson (v : Value) :
    ofJson v.toJson =
      if v.depth ≤ deepest then .ok (v.mapFloats survivor) else .error .malformed := by
  rw [ofJson, Json.decodeText, toJson, Json.ofText?_compact]
  show ofParsed (v.toNode.seen 0) = _
  rw [ofParsed_seen v (Nat.zero_le _), Nat.zero_add]

theorem mapFloats_survivor {v : Value} (h : ∀ x ∈ v.floats, x.isFinite = true → x.ReadsNearest) :
    v.mapFloats survivor = v.mapFloats fun x => if x.isFinite then .float x else .null := by
  refine mapFloats_congr v fun x hx => ?_
  rw [survivor]
  split
  · next hfinite => rw [Double.reread_eq hfinite (h x hx hfinite)]
  · rfl

theorem mapFloats_finite {v : Value} (h : ∀ x ∈ v.floats, x.isFinite = true) :
    (v.mapFloats fun x => if x.isFinite then .float x else .null) = v := by
  rw [mapFloats_congr v fun x hx => if_pos (h x hx), mapFloats_float]

/-! ## Values that were read -/

/-- What a tree is read as is no deeper than there is room, and its floats are finite. -/
def Bounded (room : ℕ) (n : Parsed) : Prop :=
  ∀ v, ofParsed n = .ok v → v.depth ≤ room ∧ ∀ x ∈ v.floats, x.isFinite = true

theorem ofParsedItems_bounded {room : ℕ} {items : List Parsed} {vs : List Value}
    (h : ∀ n ∈ items, Bounded room n) (hvs : ofParsedItems items = .ok vs) :
    depthItems vs ≤ room ∧ ∀ x ∈ floatItems vs, x.isFinite = true := by
  induction items generalizing vs with
  | nil =>
    cases hvs
    exact ⟨Nat.zero_le _, List.forall_mem_nil _⟩
  | cons n items ih =>
    obtain ⟨hn, hitems⟩ := List.forall_mem_cons.mp h
    obtain ⟨v, hv, hvs⟩ := bind_eq_ok.mp hvs
    obtain ⟨ws, hws, hvs⟩ := bind_eq_ok.mp hvs
    cases hvs
    obtain ⟨hdepth, hfinite⟩ := hn v hv
    obtain ⟨hdepths, hfinites⟩ := ih hitems hws
    refine ⟨max_le hdepth hdepths, fun x hx => ?_⟩
    exact (List.mem_append.mp hx).elim (hfinite x) (hfinites x)

theorem kept_bounded : Json.Kept fun outer => Bounded (deepest - outer) where
  scalar outer ht h v hv := by
    unfold Json.Progress.scalar? at h
    split at h
    case h_4 =>
      cases h
      cases hv
      exact ⟨Nat.zero_le _, List.forall_mem_singleton.mpr ht⟩
    case h_8 => cases h
    all_goals
      cases h
      cases hv
    all_goals exact ⟨Nat.zero_le _, List.forall_mem_nil _⟩
  array hless hitems v hv := by
    obtain ⟨vs, hvs, hlist⟩ := map_eq_ok.mp hv
    cases hlist
    obtain ⟨hdepth, hfinite⟩ := ofParsedItems_bounded hitems hvs
    refine ⟨?_, hfinite⟩
    rw [depth]
    omega
  object _ _ _ hv := by cases hv
  unusable _ _ hv := by cases hv

theorem ofParsed_of_ofJson {text : String} {v : Value} (h : ofJson text = .ok v) :
    ∃ n, Parsed.ofText? text = some n ∧ ofParsed n = .ok v := by
  rw [ofJson, Json.decodeText] at h
  cases hn : Parsed.ofText? text with
  | none =>
    rw [hn] at h
    cases h
  | some n =>
    rw [hn] at h
    exact ⟨n, rfl, h⟩

/-- A value that was read from a text lies within the depth of the reader and is finite. -/
theorem ofJson_bounded {text : String} {v : Value} (h : ofJson text = .ok v) :
    v.depth ≤ deepest ∧ ∀ x ∈ v.floats, x.isFinite = true := by
  obtain ⟨n, hn, hv⟩ := ofParsed_of_ofJson h
  exact Json.ofText?_holds kept_bounded hn v hv

/-! ## Objects -/

def Refused (n : Parsed) : Prop :=
  ∀ v, ofParsed n ≠ .ok v

theorem refused_items {items : List Parsed} (h : ∃ n ∈ items, Refused n) (vs : List Value) :
    ofParsedItems items ≠ .ok vs := by
  intro hvs
  induction items generalizing vs with
  | nil =>
    obtain ⟨n, hn, _⟩ := h
    cases hn
  | cons m items ih =>
    obtain ⟨v, hv, hvs⟩ := bind_eq_ok.mp hvs
    obtain ⟨ws, hws, _⟩ := bind_eq_ok.mp hvs
    obtain ⟨n, hn, hrefused⟩ := h
    rcases List.mem_cons.mp hn with rfl | hn
    · exact hrefused v hv
    · exact ih ⟨n, hn, hrefused⟩ ws hws

theorem spreads_refused : Json.Spreads Refused where
  array h v hv := by
    obtain ⟨vs, hvs, _⟩ := map_eq_ok.mp hv
    exact refused_items h vs hvs
  object _ v hv := by cases hv
  unusable v hv := by cases hv

/-- A text with an opening brace outside its strings is no value. -/
theorem ofJson_object {text : String} {ts : List Token} (hts : Token.all? text.toList = some ts)
    (h : .openObject ∈ ts) : ∃ fault, ofJson text = .error fault := by
  cases hresult : ofJson text with
  | error fault => exact ⟨fault, rfl⟩
  | ok v =>
    obtain ⟨n, hn, hv⟩ := ofParsed_of_ofJson hresult
    exact absurd hv (Json.ofText?_spoiled spreads_refused hts h hn v)

/-! ## The round trip -/

/-- Values survive JSON.  Within 127 lists in each other a value comes back with every float a
float, as it is read, and null for what is no finite number; so it comes back as it is where the
reader makes of the digits of its floats the nearest doubles.  Deeper values are refused.  Every
value that was read from a text comes back in the same way, and no text with an object in it is
read. -/
theorem json_round_trip :
    (∀ v : Value, v.depth ≤ 127 →
      ofJson v.toJson =
        .ok (v.mapFloats fun x => if x.isFinite then .float x.reread else .null)) ∧
    (∀ v : Value, v.depth ≤ 127 → (∀ x ∈ v.floats, x.isFinite = true → x.ReadsNearest) →
      ofJson v.toJson = .ok (v.mapFloats fun x => if x.isFinite then .float x else .null)) ∧
    (∀ v : Value, v.depth ≤ 127 → (∀ x ∈ v.floats, x.isFinite = true ∧ x.ReadsNearest) →
      ofJson v.toJson = .ok v) ∧
    (∀ v : Value, 128 ≤ v.depth → ofJson v.toJson = .error .malformed) ∧
    (∀ (text : String) (v : Value), ofJson text = .ok v → (∀ x ∈ v.floats, x.ReadsNearest) →
      ofJson v.toJson = .ok v) ∧
    (∀ (text : String) (ts : List Token), Token.all? text.toList = some ts → .openObject ∈ ts →
      ∃ fault, ofJson text = .error fault) := by
  have hkept : ∀ v : Value, v.depth ≤ 127 → ofJson v.toJson = .ok (v.mapFloats survivor) :=
    fun v h => (ofJson_toJson v).trans (if_pos h)
  have hexact : ∀ v : Value, v.depth ≤ 127 →
      (∀ x ∈ v.floats, x.isFinite = true → x.ReadsNearest) →
      ofJson v.toJson = .ok (v.mapFloats fun x => if x.isFinite then .float x else .null) :=
    fun v h hreads => (mapFloats_survivor hreads) ▸ hkept v h
  have hself : ∀ v : Value, v.depth ≤ 127 →
      (∀ x ∈ v.floats, x.isFinite = true ∧ x.ReadsNearest) → ofJson v.toJson = .ok v := by
    intro v h hreads
    rw [hexact v h fun x hx _ => (hreads x hx).2, mapFloats_finite fun x hx => (hreads x hx).1]
  refine ⟨hkept, hexact, hself, fun v h => ?_, fun text v hv hreads => ?_,
    fun text ts hts h => ofJson_object hts h⟩
  · exact (ofJson_toJson v).trans (if_neg (Nat.not_le.mpr h))
  · obtain ⟨hdepth, hfinite⟩ := ofJson_bounded hv
    exact hself v hdepth fun x hx => ⟨hfinite x hx, hreads x hx⟩

def everyKind : Value :=
  .list [.null, .bool true, .int Int64.minValue, .float (Double.ofRatio false 100 1),
    .float (Double.ofRatio true 0 1), .float (Double.ofRatio false 1 10), .text "a\"\\\n\x01",
    .list []]

/-- Two floats that a text need not give with a fraction. -/
def wholeFloats : Value :=
  .list [.float (Double.ofRatio true 0 1), .float (Double.ofRatio false 100 1)]

theorem ofJson_wholeFloats : ofJson "[-0,1e2]" = .ok wholeFloats := by
  have hzero : Json.Number.ofNumeral ⟨true, [0], none, none⟩ =
      some (.float (Double.ofRatio true 0 1)) := by decide +kernel
  have hhundred : Json.Number.ofNumeral ⟨false, [1], none, some 2⟩ =
      some (.float (Double.ofRatio false 100 1)) := by decide +kernel
  have htokens : Token.all? "[-0,1e2]".toList =
      some [.openArray, .number (some (.float (Double.ofRatio true 0 1))), .comma,
        .number (some (.float (Double.ofRatio false 100 1))), .closeArray] := by
    show Token.all? ['[', '-', '0', ',', '1', 'e', '2', ']'] = _
    rw [Token.all?_first (t := .openArray) rfl,
      Token.all?_first (t := .number (Json.Number.ofNumeral ⟨true, [0], none, none⟩)) rfl,
      Token.all?_first (t := .comma) rfl,
      Token.all?_first (t := .number (Json.Number.ofNumeral ⟨false, [1], none, some 2⟩)) rfl,
      Token.all?_first (t := .closeArray) rfl, Token.all?, hzero, hhundred]
    rfl
  rw [ofJson, Json.decodeText, Parsed.ofText?, htokens]
  rfl

/-- Values of every kind, a float that is no number, a text with other spellings, lists that lie
too deep, and a text with an object. -/
theorem json_round_trip_every_kind :
    everyKind.depth ≤ 127 ∧ (∀ x ∈ everyKind.floats, x.isFinite = true ∧ x.ReadsNearest) ∧
    ofJson everyKind.toJson = .ok everyKind ∧
    ofJson (Value.list [.float ⟨0x7FF8000000000000⟩, .int 1]).toJson =
      .ok (.list [.null, .int 1]) ∧
    (ofJson "[-0,1e2]" = .ok wholeFloats ∧ ofJson wholeFloats.toJson = .ok wholeFloats) ∧
    ofJson ((fun v => Value.list [v])^[128] .null).toJson = .error .malformed ∧
    ∃ fault, ofJson (Json.Node.array [.object []]).compact = .error fault := by
  obtain ⟨_, hexact, hself, hdeep, hread, hobject⟩ := json_round_trip
  have hfloats : ∀ x ∈ everyKind.floats, x.isFinite = true ∧ x.ReadsNearest := by
    decide +kernel
  refine ⟨by decide, hfloats, hself everyKind (by decide) hfloats, ?_,
    ⟨ofJson_wholeFloats, ?_⟩, hdeep _ (by decide +kernel), ?_⟩
  · exact hexact (.list [.float ⟨0x7FF8000000000000⟩, .int 1]) (by decide) (by decide +kernel)
  · exact hread _ _ ofJson_wholeFloats (by decide +kernel)
  · exact hobject _ _ (Json.Node.all?_compact _) (by simp [Json.Node.tokens, Json.Node.itemTokens])

end Value
end TableSearch
