/-
References and what they refer to.

A path that ends on a relation stands for the column that holds the reference.  One segment more,
for the column that is referenced, and the same relation is followed: `EndsOn.exists_resolve` says
that the longer path has the joins of the shorter one and then the join over this relation.
-/
import TableSearch.Proofs.Database.Navigation
import TableSearch.Proofs.Schema.Route

namespace TableSearch

namespace Text

variable {sep : Char}

theorem pieceChars_append (cs ds : List Char) :
    pieceChars sep (cs ++ sep :: ds) = pieceChars sep cs ++ pieceChars sep ds := by
  induction cs with
  | nil => simp [pieceChars]
  | cons c rest ih =>
    by_cases hc : c = sep
    · rw [List.cons_append, pieceChars, if_pos hc, ih, pieceChars, if_pos hc, List.cons_append]
    · rw [List.cons_append, pieceChars, if_neg hc, ih, pieceChars, if_neg hc]
      cases hrest : pieceChars sep rest with
      | nil => exact absurd hrest pieceChars_ne_nil
      | cons piece more => rfl

/-- One more part after a separator. -/
theorem pieces_concat (s : String) {t : String} (h : sep ∉ t.toList) :
    pieces sep (s ++ String.singleton sep ++ t) = pieces sep s ++ [t] := by
  have ht := pieces_of_not_mem h
  have htext : (s ++ String.singleton sep ++ t).toList = s.toList ++ sep :: t.toList := by
    simp
  rw [← ht, pieces, htext, pieceChars_append, List.map_append]
  rfl

end Text

namespace AttributePath

variable {r : Registry} {root e t : Entity} {path column references : String} {type : ColumnType}

/-- The segments of a path lead to a relation, which leads on to an entity; the path stands for
the column of the reference and has the type of the column that is referenced. -/
def EndsOn (r : Registry) (root : Entity) (path : String) (e t : Entity)
    (column references : String) (type : ColumnType) : Prop :=
  ∃ before segment target, Text.pieces Filter.segmentSeparator path = before ++ [segment] ∧
    (∀ s ∈ before ++ [segment], Text.isBlank s = false) ∧ Reaches r root before e ∧
      e.attribute? segment = some (.relation target column references) ∧
        r.find? target = some t ∧ t.columnType? references = some type

structure Follows (direct joined : AttributePath) (t : Entity) (column references : String)
    (j : Join) : Prop where
  joins : joined.joins = direct.joins ++ [j]
  fresh : ∀ k ∈ direct.joins, k.path ≠ j.path
  table : j.table = t.table
  held : direct.column = column ∧ j.column = column
  referenced : joined.column = references ∧ j.references = references
  type : joined.type = direct.type

theorem length_extended (path segment : String) :
    path.length < (extended (some path) segment).length := by
  simp only [extended, String.length_append]
  have hdot : ".".length = 1 := rfl
  omega

/-- The paths of relations grow along a walk. -/
theorem Walk.length_le {owner goal : Option String} {segments : List String} {joins : List Join}
    (h : Walk r e owner segments joins goal column type) {path : String}
    (hpath : owner = some path ∨ ∃ j ∈ joins, j.path = path) :
    ∃ last, goal = some last ∧ path.length ≤ last.length := by
  induction h generalizing path with
  | column =>
    rcases hpath with hpath | ⟨j, hj, _⟩
    · exact ⟨path, hpath, Nat.le_refl _⟩
    · cases hj
  | reference =>
    rcases hpath with hpath | ⟨j, hj, _⟩
    · exact ⟨path, hpath, Nat.le_refl _⟩
    · cases hj
  | @relation e t owner segment _ _ _ _ _ _ _ _ _ _ _ _ ih =>
    rcases hpath with rfl | ⟨j, hj, rfl⟩
    · obtain ⟨last, hlast, hle⟩ := ih (.inl rfl)
      have hlt := length_extended path segment
      exact ⟨last, hlast, by omega⟩
    · rcases List.mem_cons.mp hj with rfl | hj
      · exact ih (.inl rfl)
      · exact ih (.inr ⟨j, hj, rfl⟩)

/-- The relation that a walk ends on can be followed, and a place where the walk leads to is in
the table of the entity that was reached. -/
theorem Reaches.exists_walks {before : List String} {segment target : String}
    (h : Reaches r root before e) (hblank : ∀ s ∈ before ++ [segment], Text.isBlank s = false)
    (ha : e.attribute? segment = some (.relation target column references))
    (ht : r.find? target = some t) (htype : t.columnType? references = some type)
    (owner : Option String) :
    ∃ joins goal, Walk r root owner (before ++ [segment]) joins goal column type ∧
      (∀ last, Text.isBlank last = false → t.attribute? last = some (.column references type) →
        Walk r root owner (before ++ [segment] ++ [last])
          (joins ++ [hop goal segment column references t]) (some (extended goal segment))
            references type) ∧
      ∀ m d p q, d.table? root.table = some p.table → Place.along m d p joins = some q →
        d.table? e.table = some q.table := by
  induction h generalizing owner with
  | here =>
    have hsegment := hblank segment List.mem_cons_self
    refine ⟨[], owner, .reference hsegment ha ht htype, fun last hlast hcolumn => ?_, ?_⟩
    · exact .relation hsegment ha ht (.column hlast hcolumn)
    · intro m d p q hp hq
      cases hq
      exact hp
  | @follow root next goal first rest target' column' references' hfirst hnext _ ih =>
    obtain ⟨hnotblank, hrest⟩ := List.forall_mem_cons.mp hblank
    obtain ⟨joins, goal, hwalk, hwalks, htable⟩ := ih hrest ha (some (extended owner first))
    refine ⟨hop owner first column' references' next :: joins, goal,
      .relation hnotblank hfirst hnext hwalk, fun last hlast hcolumn => ?_, ?_⟩
    · exact .relation hnotblank hfirst hnext (hwalks last hlast hcolumn)
    · intro m d p q _ hq
      obtain ⟨table, hfound, hq⟩ := Option.bind_eq_some_iff.mp hq
      exact htable m d (p.follow m column' table references') q hfound hq

/-- A path that ends on a relation is resolved, and so is the one that goes on to the column that
is referenced, with one join more. -/
theorem EndsOn.exists_resolve (h : EndsOn r root path e t column references type) {last : String}
    (hblank : Text.isBlank last = false) (hdot : '.' ∉ last.toList)
    (hlast : t.attribute? last = some (.column references type)) :
    ∃ direct joined j, resolve r root path = .ok direct ∧
      resolve r root (path ++ "." ++ last) = .ok joined ∧
      Follows direct joined t column references j ∧
      ∀ m d p q, d.table? root.table = some p.table →
        Place.along m d p direct.joins = some q → d.table? e.table = some q.table := by
  obtain ⟨before, segment, target, hpieces, hblanks, hreaches, ha, ht, htype⟩ := h
  obtain ⟨joins, goal, hwalk, hwalks, htable⟩ :=
    hreaches.exists_walks hblanks ha ht htype none
  have hlonger : Text.pieces Filter.segmentSeparator (path ++ "." ++ last) =
      before ++ [segment] ++ [last] := by
    rw [← hpieces]
    exact Text.pieces_concat path hdot
  refine ⟨⟨path, joins, goal, column, type⟩,
    ⟨path ++ "." ++ last, joins ++ [hop goal segment column references t],
      some (extended goal segment), references, type⟩,
    hop goal segment column references t, resolve_eq_ok.mpr ⟨rfl, ?_⟩,
    resolve_eq_ok.mpr ⟨rfl, ?_⟩, ⟨rfl, ?_, rfl, ⟨rfl, rfl⟩, ⟨rfl, rfl⟩, rfl⟩, htable⟩
  · rw [hpieces]
    exact hwalk
  · rw [hlonger]
    exact hwalks last hblank hlast
  · intro k hk hsame
    obtain ⟨far, hgoal, hle⟩ := hwalk.length_le (.inr ⟨k, hk, rfl⟩)
    have hlt := length_extended far segment
    have hpath : k.path = extended (some far) segment := by
      rw [hsame, ← hgoal]
      rfl
    rw [hpath] at hle
    omega

/-- A path of segments that are not blank is not blank itself. -/
theorem EndsOn.not_blank (h : EndsOn r root path e t column references type) :
    Text.isBlank path = false := by
  obtain ⟨before, segment, _, hpieces, hblanks, _⟩ := h
  rw [← hpieces] at hblanks
  by_contra hblank
  have hspaces : path.toList.all Text.isSpace = true := by simpa [Text.isBlank] using hblank
  have hdot : Filter.segmentSeparator ∉ path.toList := fun hmem =>
    absurd (List.all_eq_true.mp hspaces _ hmem) (by decide)
  rw [Text.pieces_of_not_mem hdot] at hblanks
  exact hblank (hblanks path List.mem_cons_self)

theorem isBlank_concat (path last : String) : Text.isBlank (path ++ "." ++ last) = false := by
  have hdot : '.' ∈ (path ++ "." ++ last).toList := by simp
  rw [Text.isBlank, List.all_eq_false]
  exact ⟨'.', hdot, by decide⟩

end AttributePath
end TableSearch
