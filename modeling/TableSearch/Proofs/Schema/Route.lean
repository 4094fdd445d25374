/-
Routes of paths.

A path is a list of segments with separators between them.  It is resolved when its segments but
the last lead over relations from entity to entity, and the last one stands for a column where they
end; `Reaches` and `Stands` say so without regard to joins and errors.  `resolve_routes` says that
these paths are resolved and no others, what the joins of a path are, and at which segment a path
fails that is not resolved.
-/
import TableSearch.Proofs.Schema.Break

namespace TableSearch

namespace Text

variable {sep : Char}

theorem intercalate_pieceChars (cs : List Char) : [sep].intercalate (pieceChars sep cs) = cs := by
  have hcons : ∀ piece : List Char, ∀ more ≠ [], [sep].intercalate (piece :: more) =
      piece ++ sep :: [sep].intercalate more := by
    intro piece more hmore
    obtain ⟨next, rest, rfl⟩ := List.exists_cons_of_ne_nil hmore
    simp [List.intercalate]
  induction cs with
  | nil => rfl
  | cons c rest ih =>
    by_cases hc : c = sep
    · rw [pieceChars, if_pos hc, hcons [] _ pieceChars_ne_nil, ih, hc]
      rfl
    · rw [pieceChars, if_neg hc]
      cases hrest : pieceChars sep rest with
      | nil => exact absurd hrest pieceChars_ne_nil
      | cons piece more =>
        rw [hrest] at ih
        rw [← ih]
        cases more with
        | nil => rfl
        | cons next more =>
          rw [hcons (c :: piece) _ (List.cons_ne_nil _ _), hcons piece _ (List.cons_ne_nil _ _)]
          rfl

/-- The parts of a text make the text. -/
theorem intercalate_pieces (s : String) :
    String.intercalate (String.singleton sep) (pieces sep s) = s := by
  have hlist : ∀ css : List (List Char), (css.map String.ofList).map String.toList = css := by
    intro css
    simp
  rw [← String.toList_inj, String.toList_intercalate, pieces, hlist, String.toList_singleton,
    intercalate_pieceChars]

end Text

namespace AttributePath

/-! ## Routes through the schema -/

inductive Reaches (r : Registry) : Entity → List String → Entity → Prop where
  | here {e} : Reaches r e [] e
  | follow {e t goal segment rest target column references}
      (ha : e.attribute? segment = some (.relation target column references))
      (ht : r.find? target = some t) (h : Reaches r t rest goal) :
      Reaches r e (segment :: rest) goal

/-- A segment stands for a column: its own, or the one that holds the reference of a relation,
which has the type of the column that is referenced. -/
inductive Stands (r : Registry) (e : Entity) (segment : String) : String → ColumnType → Prop where
  | column {column type} (ha : e.attribute? segment = some (.column column type)) :
      Stands r e segment column type
  | reference {t target column references type}
      (ha : e.attribute? segment = some (.relation target column references))
      (ht : r.find? target = some t) (htype : t.columnType? references = some type) :
      Stands r e segment column type

/-- A segment leads no further, or not with those after it, and why. -/
inductive Stops (r : Registry) (e : Entity) (segment : String) (after : List String) :
    PathFault → Prop where
  | blank (hblank : Text.isBlank segment = true) : Stops r e segment after .blankSegment
  | unknown (hblank : Text.isBlank segment = false) (ha : e.attribute? segment = none) :
      Stops r e segment after (.noAttribute e.name)
  | inside {column type} (hblank : Text.isBlank segment = false)
      (ha : e.attribute? segment = some (.column column type)) (hafter : after ≠ []) :
      Stops r e segment after (.columnInside segment e.name)
  | target {target column references} (hblank : Text.isBlank segment = false)
      (ha : e.attribute? segment = some (.relation target column references))
      (ht : r.find? target = none) : Stops r e segment after (.unregisteredTarget target)
  | reference {t target column references} (hblank : Text.isBlank segment = false)
      (ha : e.attribute? segment = some (.relation target column references))
      (ht : r.find? target = some t) (htype : t.columnType? references = none)
      (hafter : after = []) : Stops r e segment after (.undeclaredColumn target references)

/-! ## Walks and routes -/

variable {r : Registry} {e e' : Entity} {path : String} {segments before : List String}
  {joins : List Join} {owner goal : Option String} {column : String} {type : ColumnType}
  {p : AttributePath}

theorem Walk.not_blank (h : Walk r e owner segments joins goal column type) :
    ∀ segment ∈ segments, Text.isBlank segment = false := by
  induction h with
  | column hblank => exact List.forall_mem_singleton.mpr hblank
  | reference hblank => exact List.forall_mem_singleton.mpr hblank
  | relation hblank _ _ _ ih => exact List.forall_mem_cons.mpr ⟨hblank, ih⟩

theorem Walk.route (h : Walk r e owner segments joins goal column type) :
    ∃ before last e', segments = before ++ [last] ∧ Reaches r e before e' ∧
      Stands r e' last column type := by
  induction h with
  | @column e _ segment _ _ _ ha => exact ⟨[], segment, e, rfl, .here, .column ha⟩
  | @reference e _ _ segment _ _ _ _ _ ha ht htype =>
    exact ⟨[], segment, e, rfl, .here, .reference ha ht htype⟩
  | @relation _ _ _ segment _ _ _ _ _ _ _ _ _ ha ht _ ih =>
    obtain ⟨before, last, e', rfl, hreaches, hstands⟩ := ih
    exact ⟨segment :: before, last, e', rfl, .follow ha ht hreaches, hstands⟩

theorem Reaches.exists_walk (h : Reaches r e before e') {last : String}
    (hblank : ∀ segment ∈ before ++ [last], Text.isBlank segment = false)
    (hstands : Stands r e' last column type) (owner : Option String) :
    ∃ joins goal, Walk r e owner (before ++ [last]) joins goal column type := by
  induction h generalizing owner with
  | here =>
    have hlast := hblank last List.mem_cons_self
    cases hstands with
    | column ha => exact ⟨[], owner, .column hlast ha⟩
    | reference ha ht htype => exact ⟨[], owner, .reference hlast ha ht htype⟩
  | @follow e t _ segment rest target column' references ha ht _ ih =>
    obtain ⟨hsegment, hrest⟩ := List.forall_mem_cons.mp hblank
    obtain ⟨joins, goal, hwalk⟩ := ih hrest hstands (some (extended owner segment))
    exact ⟨_, goal, .relation hsegment ha ht hwalk⟩

/-- A walk is followed, and gives its joins after those so far. -/
theorem Walk.follow_eq {so : List Join} (h : Walk r e owner segments joins goal column type) :
    follow r path e so owner segments =
      .ok { path, joins := so ++ joins, owner := goal, column, type } := by
  induction h generalizing so with
  | column hblank ha =>
    rw [follow, attributeAt_eq_ok.mpr ⟨hblank, ha⟩, List.append_nil]
    rfl
  | reference hblank ha ht htype =>
    rw [follow, attributeAt_eq_ok.mpr ⟨hblank, ha⟩, List.append_nil]
    simp only [bind, Except.bind, finish, ht, htype]
  | @relation e t owner segment target column references rest joins goal _ _ hblank ha ht h ih =>
    cases rest with
    | nil => cases h
    | cons next rest =>
      rw [follow_next, attributeAt_eq_ok.mpr ⟨hblank, ha⟩]
      simp only [bind, Except.bind, ht]
      rw [ih, List.append_assoc]
      rfl

/-- Exactly the walks are resolved. -/
theorem resolve_eq_ok :
    resolve r root path = .ok p ↔ p.path = path ∧
      Walk r root none (Text.pieces Filter.segmentSeparator path) p.joins p.owner p.column
        p.type := by
  constructor
  · intro h
    obtain ⟨_, _, _, hpath⟩ := walk_of_follow h
    exact ⟨hpath, walk_of_resolve h⟩
  · rintro ⟨rfl, hwalk⟩
    exact hwalk.follow_eq

/-! ## Joins along a route -/

def relationPath : List String → Option String
  | [] => none
  | segments => some (String.intercalate "." segments)

theorem extended_relationPath (before : List String) (segment : String) :
    extended (relationPath before) segment = String.intercalate "." (before ++ [segment]) := by
  cases before with
  | nil => exact String.intercalate_singleton.symm
  | cons first rest =>
    rw [String.intercalate_append_of_ne_nil (List.cons_ne_nil first rest) (List.cons_ne_nil _ _),
      String.intercalate_singleton]
    rfl

theorem relationPath_concat (before : List String) (segment : String) :
    relationPath (before ++ [segment]) = some (extended (relationPath before) segment) := by
  rw [extended_relationPath]
  cases before <;> rfl

def JoinsAt (r : Registry) (root : Entity) (before : List String) (segment : String) (j : Join) :
    Prop :=
  ∃ e t target, Reaches r root before e ∧
    e.attribute? segment = some (.relation target j.column j.references) ∧
      r.find? target = some t ∧ j.table = t.table

theorem Walk.length_joins (h : Walk r e owner segments joins goal column type) :
    joins.length + 1 = segments.length := by
  induction h with
  | column => rfl
  | reference => rfl
  | relation _ _ _ _ ih => rw [List.length_cons, List.length_cons, ih]

/-- Every segment but the last gives the join over its relation. -/
theorem Walk.join_at (h : Walk r e owner segments joins goal column type) (before : List String)
    (howner : owner = relationPath before) {i : ℕ} {j : Join} (hj : joins[i]? = some j) :
    ∃ segment, segments[i]? = some segment ∧ JoinsAt r e (segments.take i) segment j ∧
      j.path = String.intercalate "." (before ++ segments.take (i + 1)) := by
  induction h generalizing before i with
  | column => cases hj
  | reference => cases hj
  | @relation e t owner segment target column references rest joins goal _ _ _ ha ht _ ih =>
    subst howner
    cases i with
    | zero =>
      cases hj
      exact ⟨segment, rfl, ⟨e, t, target, .here, ha, ht, rfl⟩, extended_relationPath before segment⟩
    | succ i =>
      obtain ⟨segment', hsegment, ⟨e', t', target', hreaches, ha', ht', htable⟩, hpath⟩ :=
        ih (before ++ [segment]) (relationPath_concat before segment).symm hj
      refine ⟨segment', hsegment,
        ⟨e', t', target', .follow ha ht hreaches, ha', ht', htable⟩, ?_⟩
      rw [hpath, List.append_assoc]
      rfl

theorem Chained.parent_first {start : Option String} (h : Chained start joins goal) {j : Join}
    (hj : joins[0]? = some j) : j.parent = start := by
  cases joins with
  | nil => cases hj
  | cons first rest =>
    cases hj
    exact h.1

theorem Chained.parent_next {start : Option String} (h : Chained start joins goal) {i : ℕ}
    {j k : Join} (hj : joins[i]? = some j) (hk : joins[i + 1]? = some k) :
    k.parent = some j.path := by
  induction joins generalizing start i with
  | nil => cases hj
  | cons first rest ih =>
    cases i with
    | zero =>
      cases hj
      exact h.2.parent_first hk
    | succ i => exact ih h.2 hj hk

/-- A chain ends at its last join, or where it started. -/
theorem Chained.goal_eq {start : Option String} (h : Chained start joins goal) :
    goal = (joins.getLast?.map Join.path).or start := by
  induction joins generalizing start with
  | nil => exact h.symm
  | cons first rest ih =>
    rw [ih h.2, List.getLast?_cons]
    cases rest.getLast? <;> rfl

/-! ## Breaks and routes -/

/-- A path breaks where the segments before lead to one that stops. -/
theorem breaks_iff {stop : String} {fault : PathFault} :
    Breaks r e segments stop fault ↔ ∃ before after e', segments = before ++ stop :: after ∧
      (∀ segment ∈ before, Text.isBlank segment = false) ∧ Reaches r e before e' ∧
        Stops r e' stop after fault := by
  constructor
  · intro h
    induction h with
    | @blank e segment rest hblank =>
      exact ⟨[], rest, e, rfl, List.forall_mem_nil _, .here, .blank hblank⟩
    | @unknown e segment rest hblank ha =>
      exact ⟨[], rest, e, rfl, List.forall_mem_nil _, .here, .unknown hblank ha⟩
    | @inside e segment next rest column type hblank ha =>
      exact ⟨[], next :: rest, e, rfl, List.forall_mem_nil _, .here,
        .inside hblank ha (List.cons_ne_nil _ _)⟩
    | @target e segment rest target column references hblank ha ht =>
      exact ⟨[], rest, e, rfl, List.forall_mem_nil _, .here, .target hblank ha ht⟩
    | @reference e t segment target column references hblank ha ht htype =>
      exact ⟨[], [], e, rfl, List.forall_mem_nil _, .here, .reference hblank ha ht htype rfl⟩
    | @later e t segment rest target column references stop fault hblank ha ht _ ih =>
      obtain ⟨before, after, e', rfl, hbefore, hreaches, hstops⟩ := ih
      exact ⟨segment :: before, after, e', rfl, List.forall_mem_cons.mpr ⟨hblank, hbefore⟩,
        .follow ha ht hreaches, hstops⟩
  · rintro ⟨before, after, e', rfl, hbefore, hreaches, hstops⟩
    induction hreaches with
    | here =>
      cases hstops with
      | blank hblank => exact .blank hblank
      | unknown hblank ha => exact .unknown hblank ha
      | inside hblank ha hafter =>
        obtain ⟨next, rest, rfl⟩ := List.exists_cons_of_ne_nil hafter
        exact .inside hblank ha
      | target hblank ha ht => exact .target hblank ha ht
      | reference hblank ha ht htype hafter =>
        subst hafter
        exact .reference hblank ha ht htype
    | follow ha ht _ ih =>
      obtain ⟨hblank, hbefore⟩ := List.forall_mem_cons.mp hbefore
      exact .later hblank ha ht (ih hbefore hstops)

/-! ## Resolution -/

/-- A resolved path has one join for each segment but the last, in their order, each starting
where the one before it ended, and the column that the last segment stands for. -/
structure Describes (r : Registry) (root : Entity) (segments : List String) (p : AttributePath) :
    Prop where
  length : p.joins.length + 1 = segments.length
  join : ∀ (i : ℕ) (j : Join), p.joins[i]? = some j → ∃ segment, segments[i]? = some segment ∧
    JoinsAt r root (segments.take i) segment j
  path : ∀ (i : ℕ) (j : Join), p.joins[i]? = some j →
    j.path = String.intercalate "." (segments.take (i + 1))
  first : ∀ j : Join, p.joins[0]? = some j → j.parent = none
  next : ∀ (i : ℕ) (j k : Join), p.joins[i]? = some j → p.joins[i + 1]? = some k →
    k.parent = some j.path
  owner : p.owner = p.joins.getLast?.map Join.path
  column : ∃ before last e, segments = before ++ [last] ∧ Reaches r root before e ∧
    Stands r e last p.column p.type

theorem Walk.describes
    (h : Walk r root none segments p.joins p.owner p.column p.type) :
    Describes r root segments p where
  length := h.length_joins
  join i j hj := by
    obtain ⟨segment, hsegment, hjoins, _⟩ := h.join_at [] rfl hj
    exact ⟨segment, hsegment, hjoins⟩
  path i j hj := by
    obtain ⟨_, _, _, hpath⟩ := h.join_at [] rfl hj
    exact hpath
  first j hj := h.chained.parent_first hj
  next i j k hj hk := h.chained.parent_next hj hk
  owner := by rw [h.chained.goal_eq, Option.or_none]
  column := h.route

/-- Paths are resolved exactly along the routes of the schema.  A path is resolved when none of
its segments is blank, those before the last lead over relations from the root through registered
entities, and the last stands for a column of the entity reached; then it has the joins of these
relations.  A path that is not resolved fails at the first segment that stops it, for the reason of
that segment. -/
theorem resolve_routes (r : Registry) (root : Entity) (path : String) :
    ∃ segments : List String, segments ≠ [] ∧ (∀ segment ∈ segments, '.' ∉ segment.toList) ∧
      String.intercalate "." segments = path ∧
      ((∃ p, resolve r root path = .ok p) ↔
        (∀ segment ∈ segments, Text.isBlank segment = false) ∧
          ∃ before last e column type, segments = before ++ [last] ∧ Reaches r root before e ∧
            Stands r e last column type) ∧
      (∀ p, resolve r root path = .ok p → p.path = path ∧ Describes r root segments p) ∧
      ∀ err, resolve r root path = .error err ↔ ∃ before stop after e fault,
        segments = before ++ stop :: after ∧
          (∀ segment ∈ before, Text.isBlank segment = false) ∧ Reaches r root before e ∧
            Stops r e stop after fault ∧ err = .invalidPath path stop fault := by
  refine ⟨Text.pieces Filter.segmentSeparator path, Text.pieces_ne_nil,
    fun segment => Text.not_mem_of_mem_pieces, Text.intercalate_pieces path, ⟨?_, ?_⟩,
    fun p hp => ?_, fun err => ?_⟩
  · rintro ⟨p, hp⟩
    have hwalk := walk_of_resolve hp
    obtain ⟨before, last, e, hsegments, hreaches, hstands⟩ := hwalk.route
    exact ⟨hwalk.not_blank, before, last, e, p.column, p.type, hsegments, hreaches, hstands⟩
  · rintro ⟨hblank, before, last, e, column, type, hsegments, hreaches, hstands⟩
    rw [hsegments] at hblank
    obtain ⟨joins, goal, hwalk⟩ := hreaches.exists_walk hblank hstands none
    rw [← hsegments] at hwalk
    exact ⟨⟨path, joins, goal, column, type⟩, resolve_eq_ok.mpr ⟨rfl, hwalk⟩⟩
  · obtain ⟨hpath, hwalk⟩ := resolve_eq_ok.mp hp
    exact ⟨hpath, hwalk.describes⟩
  · simp only [resolve_eq_error, breaks_iff]
    constructor
    · rintro ⟨stop, fault, ⟨before, after, e, hsegments, hblank, hreaches, hstops⟩, rfl⟩
      exact ⟨before, stop, after, e, fault, hsegments, hblank, hreaches, hstops, rfl⟩
    · rintro ⟨before, stop, after, e, fault, hsegments, hblank, hreaches, hstops, rfl⟩
      exact ⟨stop, fault, ⟨before, after, e, hsegments, hblank, hreaches, hstops⟩, rfl⟩

def worker : Entity :=
  ((Entity.bare "people" "workers").withColumn "name" .text).withAttribute "manager"
    (.relation "people" "manager_id" "name")

theorem resolve_routes_managed : ∃ p segments,
    resolve (Keyed.empty.insert worker) worker "manager.manager.manager" = .ok p ∧
      String.intercalate "." segments = "manager.manager.manager" ∧
        Describes (Keyed.empty.insert worker) worker segments p := by
  obtain ⟨segments, _, _, hpath, _, hdescribes, _⟩ :=
    resolve_routes (Keyed.empty.insert worker) worker "manager.manager.manager"
  have hok : (resolve (Keyed.empty.insert worker) worker
      "manager.manager.manager").toOption.isSome = true := by decide +kernel
  obtain ⟨p, hp⟩ := Option.isSome_iff_exists.mp hok
  have hresolve := Success.toOption_eq_some.mp hp
  exact ⟨p, segments, hresolve, hpath, (hdescribes p hresolve).2⟩

end AttributePath
end TableSearch
