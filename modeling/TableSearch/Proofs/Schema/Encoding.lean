/-
Entities and registries as JSON trees.

What is seen of the trees of entities is decoded to the entities again, wherever the trees stand
inside a few others: `entitiesOfParsed_seen`.  So the written forms of a registry are read as the
registry: `decodeText_toJson`.
-/
import TableSearch.Proofs.Json.Indented
import TableSearch.Proofs.Schema.Loading

namespace TableSearch

open Json (Decoder Node Parsed)
open Json.Progress (deepest)

namespace Json

variable {α : Type} {outer : ℕ} {decode : Decoder α} {toNode : α → Node}

/-! ## Lists, maps and records -/

theorem itemsSeen_map (items : List α) :
    Node.itemsSeen outer (items.map toNode) = items.map fun a => (toNode a).seen outer := by
  induction items with
  | nil => rfl
  | cons a rest ih => rw [List.map_cons, Node.itemsSeen, ih, List.map_cons]

theorem entriesSeen_map (entries : List (String × α)) :
    Node.entriesSeen outer (entries.map fun (k, a) => (k, toNode a)) =
      entries.map fun (k, a) => (some k, (toNode a).seen outer) := by
  induction entries with
  | nil => rfl
  | cons entry rest ih => rw [List.map_cons, Node.entriesSeen, ih, List.map_cons]

theorem array_itemsSeen {items : List α} (h : ∀ a ∈ items, decode ((toNode a).seen outer) = .ok a) :
    Decode.array decode (.array (Node.itemsSeen outer (items.map toNode))) = .ok items := by
  show (Node.itemsSeen outer (items.map toNode)).mapM decode = _
  rw [itemsSeen_map, Success.mapM_eq_ok, List.forall₂_map_left_iff, List.forall₂_same]
  exact h

theorem dict_entriesSeen {d : Dict α}
    (h : ∀ entry ∈ d.entries, decode ((toNode entry.2).seen outer) = .ok entry.2) :
    Decode.dict decode
      (.object (Node.entriesSeen outer (d.entries.map fun (k, a) => (k, toNode a)))) = .ok d := by
  refine Success.bind_eq_ok.mpr ⟨d.entries, Success.mapM_eq_ok.mpr ?_,
    congrArg Except.ok (Keyed.ofList_items d)⟩
  rw [entriesSeen_map, List.forall₂_map_left_iff, List.forall₂_same]
  intro entry hmem
  show (decode ((toNode entry.2).seen outer) >>= fun a => pure (entry.1, a)) = _
  rw [h entry hmem]
  rfl

namespace Fields

variable {entries : List (Option String × Parsed)} {named : List (String × Parsed)}
  {fs : Fields} {n : Parsed} {a : Option α} {k : String}

theorem ofEntries_eq_ok (h : ofEntries entries = .ok fs) :
    ∃ named, fs = .named named ∧ entries = named.map fun (k, n) => (some k, n) := by
  obtain ⟨named, hnamed, h⟩ := Success.bind_eq_ok.mp h
  cases h
  refine ⟨named, rfl, ?_⟩
  have hrelated := Success.mapM_eq_ok.mp hnamed
  clear hnamed h
  induction hrelated with
  | nil => rfl
  | @cons entry _ _ _ hentry _ ih =>
    obtain ⟨key, n⟩ := entry
    cases key with
    | none => cases hentry
    | some k =>
      cases hentry
      rw [List.map_cons, ih]

/-- A field that is there is found, since it may not be there twice. -/
theorem get?_eq_ok {position : ℕ} {found : Option Parsed} (hmem : (k, n) ∈ named)
    (h : (Fields.named named).get? position k = .ok found) : found = some n := by
  have hfound : (k, n) ∈ named.filter fun e => e.1 == k :=
    List.mem_filter.mpr ⟨hmem, beq_self_eq_true k⟩
  unfold get? at h
  dsimp only at h
  split at h
  · next hnone =>
    rw [hnone] at hfound
    cases hfound
  · next hone =>
    rw [hone] at hfound
    cases h
    cases List.mem_singleton.mp hfound
    rfl
  · cases h

theorem optional_eq_ok {position : ℕ} (hmem : (k, n) ∈ named)
    (h : (Fields.named named).optional position k decode = .ok a) :
    Decode.nullable decode n = .ok a := by
  obtain ⟨found, hget, h⟩ := Success.bind_eq_ok.mp h
  cases get?_eq_ok hmem hget
  exact h

end Fields
end Json

/-! ## Attributes and entities -/

variable {outer : ℕ}

theorem Attribute.ofParsed_seen (a : Attribute) (h : outer < deepest) :
    Attribute.ofParsed (a.toNode.seen outer) = .ok a := by
  cases a with
  | column name type =>
    rw [toNode, Node.seen, if_pos h]
    cases type <;> rfl
  | relation entity name references =>
    rw [toNode, Node.seen, if_pos h]
    rfl

theorem Attribute.isUsable_seen (a : Attribute) (h : outer < deepest) :
    (a.toNode.seen outer).isUsable = true := by
  cases a with
  | column name type =>
    rw [toNode, Node.seen, if_pos h]
    rfl
  | relation entity name references =>
    rw [toNode, Node.seen, if_pos h]
    rfl

theorem Attribute.whole_seen (a : Attribute) (h : outer < deepest) :
    Json.Decode.whole Attribute.ofParsed (a.toNode.seen outer) = .ok a := by
  rw [Json.Decode.whole, if_pos (a.isUsable_seen h), a.ofParsed_seen h]

theorem Entity.attributes_seen (e : Entity) (h : outer + 1 < deepest) :
    Json.Decode.dict (Json.Decode.whole Attribute.ofParsed)
      ((Node.object (e.attributes.entries.map fun (name, a) => (name, a.toNode))).seen outer) =
        .ok e.attributes := by
  rw [Node.seen, if_pos (by omega)]
  exact Json.dict_entriesSeen fun entry _ => entry.2.whole_seen h

theorem Entity.ofParsed_seen (e : Entity) (h : outer + 2 < deepest) :
    Entity.ofParsed (e.toNode.seen outer) = .ok e := by
  rw [toNode, Node.seen, if_pos (by omega)]
  show (Json.Decode.dict (Json.Decode.whole Attribute.ofParsed) _ >>= fun attributes => _) = _
  rw [e.attributes_seen h]
  rfl

/-! ## Registries -/

namespace Registry

variable {entities : List Entity} {r : Registry} {text : String}

/-- The array of the trees of entities is decoded to the entities. -/
theorem entitiesOfParsed_seen (entities : List Entity) (h : outer + 3 < deepest) :
    entitiesOfParsed ((Node.array (entities.map Entity.toNode)).seen outer) = .ok entities := by
  rw [Node.seen, if_pos (by omega)]
  exact Json.array_itemsSeen fun e _ => e.ofParsed_seen h

/-- A text of entities, one by one and in any order, is read as the registry that they load. -/
theorem decodeText_entities
    (h : Parsed.ofText? text = some ((Node.array (entities.map Entity.toNode)).seen 0)) :
    Json.decodeText ofParsed text = .ok (load entities) := by
  rw [Json.decodeText, h]
  show (entitiesOfParsed _ >>= fun entities => pure (load entities)) = _
  rw [entitiesOfParsed_seen entities (by decide)]
  rfl

/-- The text of a registry is an array of the trees of its entities. -/
theorem ofText?_toJson (r : Registry) : ∃ trees, Parsed.ofText? r.toJson = some (.array trees) ∧
    List.Forall₂ (fun tree e => Entity.ofParsed tree = .ok e) trees r.items := by
  have hdecoded : entitiesOfParsed (r.toNode.seen 0) = .ok r.items :=
    entitiesOfParsed_seen r.items (by decide)
  exact ⟨_, Json.ofText?_compact r.toNode, Success.mapM_eq_ok.mp hdecoded⟩

/-- The text of a registry is read as the registry. -/
theorem decodeText_toJson (r : Registry) : Json.decodeText ofParsed r.toJson = .ok (r, []) := by
  rw [toJson, decodeText_entities (Json.ofText?_compact r.toNode), load_items]

end Registry
end TableSearch
