/-
Walks through the schema, and the joins that they give.

`Walk` says which joins a list of segments gives on the way from an entity to a column,
without regard to errors, and `walk_of_resolve` that a resolved path is such a walk.

A segment holds no separator, so the path of a relation determines the segments that lead
to it, and with them the joins: `Leads.unique`.  Hence two walks from the same root that
use joins with the same path use the same joins, which is `Relates.eq_of_path`.
-/
import TableSearch.Schema.Path
import TableSearch.Proofs.Success

namespace TableSearch

namespace Text

theorem not_mem_of_mem_pieceChars {sep : Char} {cs piece : List Char}
    (h : piece ∈ pieceChars sep cs) : sep ∉ piece := by
  induction cs generalizing piece with
  | nil =>
    have hpiece : piece = [] := by simpa [pieceChars] using h
    rw [hpiece]
    exact List.not_mem_nil
  | cons c rest ih =>
    by_cases hc : c = sep
    · rw [pieceChars, if_pos hc] at h
      rcases List.mem_cons.mp h with rfl | h
      · exact List.not_mem_nil
      · exact ih h
    · rw [pieceChars, if_neg hc] at h
      cases hrest : pieceChars sep rest with
      | nil => exact absurd hrest pieceChars_ne_nil
      | cons first more =>
        rw [hrest] at h ih
        rcases List.mem_cons.mp h with rfl | h
        · intro hm
          rcases List.mem_cons.mp hm with hm | hm
          · exact hc hm.symm
          · exact ih List.mem_cons_self hm
        · exact ih (List.mem_cons_of_mem first h)

theorem not_mem_of_mem_pieces {sep : Char} {s piece : String} (h : piece ∈ pieces sep s) :
    sep ∉ piece.toList := by
  obtain ⟨cs, hcs, rfl⟩ := List.mem_map.mp h
  rw [String.toList_ofList]
  exact not_mem_of_mem_pieceChars hcs

theorem pieceChars_of_not_mem {sep : Char} {cs : List Char} (h : sep ∉ cs) :
    pieceChars sep cs = [cs] := by
  induction cs with
  | nil => rfl
  | cons c rest ih =>
    have hc : c ≠ sep := fun e => h (by simp [e])
    have hrest : sep ∉ rest := fun hm => h (List.mem_cons_of_mem c hm)
    rw [pieceChars, if_neg hc, ih hrest]

theorem pieces_of_not_mem {sep : Char} {s : String} (h : sep ∉ s.toList) : pieces sep s = [s] := by
  rw [pieces, pieceChars_of_not_mem h, List.map_singleton, String.ofList_toList]

end Text

namespace AttributePath

/-! ## Paths of relations -/

theorem toList_extended_some (path segment : String) :
    (extended (some path) segment).toList = path.toList ++ '.' :: segment.toList := by
  simp [extended]

/-- Nothing but its last segment and what stands before it makes the path of a relation. -/
theorem extended_injective {owner owner' : Option String} {segment segment' : String}
    (hs : '.' ∉ segment.toList) (hs' : '.' ∉ segment'.toList)
    (h : extended owner segment = extended owner' segment') :
    owner = owner' ∧ segment = segment' := by
  -- A path of more than one segment holds a separator, and the last one cuts it.
  have hne : ∀ {path s t : String}, '.' ∉ t.toList → extended (some path) s ≠ t := by
    intro path s t ht e
    apply ht
    rw [← e, toList_extended_some]
    simp
  cases owner with
  | none =>
    cases owner' with
    | none => exact ⟨rfl, h⟩
    | some path' => exact absurd h.symm (hne hs)
  | some path =>
    cases owner' with
    | none => exact absurd h (hne hs')
    | some path' =>
      have hlist := congrArg (fun s => s.toList.reverse) h
      simp only [toList_extended_some, List.reverse_append, List.reverse_cons,
        List.append_assoc, List.singleton_append] at hlist
      have hcut := congrArg (Text.cutFirstChars '.') hlist
      rw [Text.cutFirstChars_append (by simpa using hs),
        Text.cutFirstChars_append (by simpa using hs')] at hcut
      simp only [Option.some.injEq, Prod.mk.injEq, List.reverse_inj] at hcut
      exact ⟨congrArg some (String.toList_inj.mp hcut.2), String.toList_inj.mp hcut.1⟩

/-! ## Walks -/

def hop (owner : Option String) (segment column references : String) (t : Entity) : Join where
  path := extended owner segment
  parent := owner
  table := t.table
  column
  references

/-- The segments lead from an entity, which the path `owner` stands for, over joins to a
column. -/
inductive Walk (r : Registry) : Entity → Option String → List String → List Join →
    Option String → String → ColumnType → Prop where
  | column {e owner segment column type} (hblank : Text.isBlank segment = false)
      (ha : e.attribute? segment = some (.column column type)) :
      Walk r e owner [segment] [] owner column type
  | reference {e t owner segment target column references type}
      (hblank : Text.isBlank segment = false)
      (ha : e.attribute? segment = some (.relation target column references))
      (ht : r.find? target = some t) (htype : t.columnType? references = some type) :
      Walk r e owner [segment] [] owner column type
  | relation {e t owner segment target column references rest joins goal last type}
      (hblank : Text.isBlank segment = false)
      (ha : e.attribute? segment = some (.relation target column references))
      (ht : r.find? target = some t)
      (h : Walk r t (some (extended owner segment)) rest joins goal last type) :
      Walk r e owner (segment :: rest) (hop owner segment column references t :: joins) goal
        last type

theorem attributeAt_eq_ok {path segment : String} {e : Entity} {a : Attribute} :
    attributeAt path e segment = .ok a ↔
      Text.isBlank segment = false ∧ e.attribute? segment = some a := by
  unfold attributeAt
  by_cases hblank : Text.isBlank segment = true
  · simp [hblank]
  · rw [if_neg hblank]
    cases ha : e.attribute? segment with
    | none => simp
    | some b => simp [hblank]

theorem walk_of_finish {r : Registry} {path segment : String} {e : Entity} {joins : List Join}
    {owner : Option String} {a : Attribute} {p : AttributePath}
    (hblank : Text.isBlank segment = false) (ha : e.attribute? segment = some a)
    (h : finish r path joins owner segment a = .ok p) :
    Walk r e owner [segment] [] p.owner p.column p.type ∧ p.joins = joins ∧ p.path = path := by
  cases a with
  | column column type =>
    cases h
    exact ⟨.column hblank ha, rfl, rfl⟩
  | relation target column references =>
    unfold finish at h
    cases ht : r.find? target with
    | none => simp [ht] at h
    | some t =>
      cases htype : t.columnType? references with
      | none => simp [ht, htype] at h
      | some type =>
        simp only [ht, htype, Except.ok.injEq] at h
        subst h
        exact ⟨.reference hblank ha ht htype, rfl, rfl⟩

/-- What is followed is a walk, and its joins come after those so far. -/
theorem walk_of_follow {r : Registry} {path : String} {segments : List String} {e : Entity}
    {joins : List Join} {owner : Option String} {p : AttributePath}
    (h : follow r path e joins owner segments = .ok p) :
    ∃ more, Walk r e owner segments more p.owner p.column p.type ∧ p.joins = joins ++ more ∧
      p.path = path := by
  induction segments generalizing e joins owner with
  | nil => cases h
  | cons segment rest ih =>
    cases rest with
    | nil =>
      rw [follow, Success.bind_eq_ok] at h
      obtain ⟨a, ha, h⟩ := h
      obtain ⟨hblank, ha⟩ := attributeAt_eq_ok.mp ha
      obtain ⟨hwalk, hjoins, hpath⟩ := walk_of_finish hblank ha h
      exact ⟨[], hwalk, by rw [hjoins, List.append_nil], hpath⟩
    | cons next rest =>
      rw [follow, Success.bind_eq_ok] at h
      · obtain ⟨a, ha, h⟩ := h
        obtain ⟨hblank, ha⟩ := attributeAt_eq_ok.mp ha
        cases a with
        | column column type => cases h
        | relation target column references =>
          cases ht : r.find? target with
          | none => simp [ht] at h
          | some t =>
            simp only [ht] at h
            obtain ⟨more, hwalk, hjoins, hpath⟩ := ih h
            refine ⟨hop owner segment column references t :: more,
              .relation hblank ha ht hwalk, ?_, hpath⟩
            rw [hjoins, List.append_assoc]
            rfl
      · intro e
        cases e

theorem walk_of_resolve {r : Registry} {root : Entity} {path : String} {p : AttributePath}
    (h : resolve r root path = .ok p) :
    Walk r root none (Text.pieces Filter.segmentSeparator path) p.joins p.owner p.column
      p.type := by
  obtain ⟨more, hwalk, hjoins, _⟩ := walk_of_follow h
  rw [List.nil_append] at hjoins
  rw [hjoins]
  exact hwalk

theorem path_of_resolve {r : Registry} {root : Entity} {path : String} {p : AttributePath}
    (h : resolve r root path = .ok p) : p.path = path := by
  obtain ⟨_, _, _, hpath⟩ := walk_of_follow h
  exact hpath

/-! ## Chains of joins -/

def Chained : Option String → List Join → Option String → Prop
  | start, [], goal => start = goal
  | start, j :: rest, goal => j.parent = start ∧ Chained (some j.path) rest goal

theorem Walk.chained {r : Registry} {e : Entity} {owner goal : Option String}
    {segments : List String} {joins : List Join} {column : String} {type : ColumnType}
    (h : Walk r e owner segments joins goal column type) : Chained owner joins goal := by
  induction h with
  | column => rfl
  | reference => rfl
  | relation _ _ _ _ ih => exact ⟨rfl, ih⟩

/-! ## Joins by their paths -/

/-- The joins that lead from the root to a relation, with the entity they reach. -/
inductive Leads (r : Registry) (root : Entity) : List Join → Option String → Entity → Prop where
  | start : Leads r root [] none root
  | relation {joins owner e t segment target column references}
      (h : Leads r root joins owner e) (hdot : '.' ∉ segment.toList)
      (ha : e.attribute? segment = some (.relation target column references))
      (ht : r.find? target = some t) :
      Leads r root (joins ++ [hop owner segment column references t])
        (some (extended owner segment)) t

theorem Leads.unique {r : Registry} {root e e' : Entity} {joins joins' : List Join}
    {owner : Option String} (h : Leads r root joins owner e) (h' : Leads r root joins' owner e') :
    joins = joins' ∧ e = e' := by
  induction h generalizing joins' e' with
  | start =>
    cases h' with
    | start => exact ⟨rfl, rfl⟩
  | @relation joins owner e t segment target column references h hdot ha ht ih =>
    generalize hgoal : some (extended owner segment) = goal at h'
    cases h' with
    | start => cases hgoal
    | relation h' hdot' ha' ht' =>
      obtain ⟨rfl, rfl⟩ := extended_injective hdot hdot' (Option.some.inj hgoal)
      obtain ⟨rfl, rfl⟩ := ih h'
      rw [ha] at ha'
      cases ha'
      rw [ht] at ht'
      cases ht'
      exact ⟨rfl, rfl⟩

/-- The join is the last one on the way from the root to a relation. -/
def Relates (r : Registry) (root : Entity) (j : Join) : Prop :=
  ∃ joins e, Leads r root (joins ++ [j]) (some j.path) e

theorem Relates.eq_of_path {r : Registry} {root : Entity} {j j' : Join}
    (h : Relates r root j) (h' : Relates r root j') (hpath : j.path = j'.path) : j = j' := by
  obtain ⟨joins, e, h⟩ := h
  obtain ⟨joins', e', h'⟩ := h'
  rw [← hpath] at h'
  have hsame := (h.unique h').1
  have hlast := congrArg List.getLast? hsame
  simpa using hlast

theorem Walk.relates {r : Registry} {root e : Entity} {owner goal : Option String}
    {segments : List String} {joins so : List Join} {column : String} {type : ColumnType}
    (h : Walk r e owner segments joins goal column type)
    (hdot : ∀ segment ∈ segments, '.' ∉ segment.toList) (hlead : Leads r root so owner e) :
    ∀ j ∈ joins, Relates r root j := by
  induction h generalizing so with
  | column => exact fun j hj => absurd hj List.not_mem_nil
  | reference => exact fun j hj => absurd hj List.not_mem_nil
  | relation _ ha ht _ ih =>
    intro j hj
    have hnext := hlead.relation (hdot _ List.mem_cons_self) ha ht
    rcases List.mem_cons.mp hj with rfl | hj
    · exact ⟨so, _, hnext⟩
    · exact ih (fun segment hs => hdot segment (List.mem_cons_of_mem _ hs)) hnext j hj

theorem relates_of_resolve {r : Registry} {root : Entity} {path : String} {p : AttributePath}
    (h : resolve r root path = .ok p) : ∀ j ∈ p.joins, Relates r root j :=
  (walk_of_resolve h).relates (fun _ hs => Text.not_mem_of_mem_pieces hs) .start

end AttributePath
end TableSearch
