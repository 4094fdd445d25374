/-
Searches in a registry that grows.

A path is followed from one registered entity to the next.  In a larger registry it goes the same
way, and breaks at the same segment, unless it broke for want of an entity that is there now.
`Keeps` says this of any computation that may fail.  It passes from the parts of a chain and from
the items of a list to the whole, and so from paths to plans: `new_entities_unseen`.
-/
import TableSearch.Proofs.Schema.Loading
import TableSearch.Proofs.Schema.Route
import TableSearch.Proofs.Search.Refusal

namespace TableSearch

inductive QueryError.Misses (name : String) : QueryError → Prop where
  | root : Misses name (.unknownEntity name)
  | target {path segment : String} :
      Misses name (.invalidPath path segment (.unregisteredTarget name))

namespace QueryError

variable {err : QueryError} {name key path : String}

theorem OfKey.not_misses (h : err.OfKey key) : ¬ err.Misses name := by
  intro hmisses
  rcases h with rfl | ⟨token, rfl⟩ <;> cases hmisses

theorem OfValue.not_misses (h : err.OfValue path) : ¬ err.Misses name := by
  intro hmisses
  cases h <;> cases hmisses

end QueryError

/-! ## Computations in two registries -/

namespace Registry

variable {α β : Type} {r r' : Registry} {e : Entity} {name : String} {x y : Except QueryError α}

def Within (r r' : Registry) : Prop :=
  ∀ name e, r.find? name = some e → r'.find? name = some e

theorem within_register (hnew : r.find? e.name = none) : r.Within (r.register e) := by
  intro name d hd
  have hne : e.name ≠ name := by
    rintro rfl
    rw [hnew] at hd
    cases hd
  rw [register, Keyed.find?_insert, if_neg hne, hd]

/-- `y` is `x`, made in the registry `r`, which may be larger: it has the same result, or the same
error if this misses nothing that `r` has, and never an error that does. -/
structure Keeps (r : Registry) (x y : Except QueryError α) : Prop where
  ok : ∀ a, x = .ok a → y = .ok a
  error : ∀ err, x = .error err → (∀ name, err.Misses name → r.find? name = none) →
    y = .error err
  missing : ∀ err name, y = .error err → err.Misses name → r.find? name = none

theorem keeps_refl (h : ∀ err name, x = .error err → ¬ err.Misses name) : r.Keeps x x where
  ok _ ha := ha
  error _ herr _ := herr
  missing err name herr hmisses := absurd hmisses (h err name herr)

theorem keeps_pure (a : α) : r.Keeps (pure a) (pure a) := by
  refine keeps_refl fun err name h => ?_
  cases h

theorem Keeps.bind {f g : α → Except QueryError β} (h : r.Keeps x y)
    (hf : ∀ a, r.Keeps (f a) (g a)) : r.Keeps (x >>= f) (y >>= g) where
  ok b hb := by
    obtain ⟨a, ha, hb⟩ := Success.bind_eq_ok.mp hb
    exact Success.bind_eq_ok.mpr ⟨a, h.ok a ha, (hf a).ok b hb⟩
  error err herr hmisses := by
    rcases Success.bind_eq_error.mp herr with hx | ⟨a, ha, hfails⟩
    · exact Success.bind_eq_error.mpr (.inl (h.error err hx hmisses))
    · exact Success.bind_eq_error.mpr (.inr ⟨a, h.ok a ha, (hf a).error err hfails hmisses⟩)
  missing err name herr hmisses := by
    rcases Success.bind_eq_error.mp herr with hy | ⟨a, -, hfails⟩
    · exact h.missing err name hy hmisses
    · exact (hf a).missing err name hfails hmisses

theorem keeps_mapM {f g : α → Except QueryError β} (h : ∀ a, r.Keeps (f a) (g a)) (as : List α) :
    r.Keeps (as.mapM f) (as.mapM g) := by
  induction as with
  | nil => exact keeps_pure []
  | cons a rest ih =>
    rw [List.mapM_cons, List.mapM_cons]
    exact (h a).bind fun b => ih.bind fun bs => keeps_pure (b :: bs)

theorem keeps_get (h : r.Within r') (name : String) : r'.Keeps (r.get name) (r'.get name) where
  ok e he := get_eq_ok.mpr (h name e (get_eq_ok.mp he))
  error err herr hmisses := by
    obtain ⟨-, rfl⟩ := get_eq_error.mp herr
    exact get_eq_error.mpr ⟨hmisses name .root, rfl⟩
  missing err missed herr hmisses := by
    obtain ⟨hnone, rfl⟩ := get_eq_error.mp herr
    cases hmisses
    exact hnone

end Registry

/-! ## Paths -/

namespace AttributePath

open Registry (Within Keeps)

variable {r r' : Registry} {e : Entity} {owner goal : Option String} {segments : List String}
  {joins : List Join} {column stop : String} {type : ColumnType} {fault : PathFault}

theorem Walk.within (h : Walk r e owner segments joins goal column type) (hr : r.Within r') :
    Walk r' e owner segments joins goal column type := by
  induction h with
  | column hblank ha => exact .column hblank ha
  | reference hblank ha ht htype => exact .reference hblank ha (hr _ _ ht) htype
  | relation hblank ha ht _ ih => exact .relation hblank ha (hr _ _ ht) ih

theorem Breaks.within (h : Breaks r e segments stop fault) (hr : r.Within r')
    (hmissing : ∀ name, fault = .unregisteredTarget name → r'.find? name = none) :
    Breaks r' e segments stop fault := by
  induction h with
  | blank hblank => exact .blank hblank
  | unknown hblank ha => exact .unknown hblank ha
  | inside hblank ha => exact .inside hblank ha
  | target hblank ha _ => exact .target hblank ha (hmissing _ rfl)
  | reference hblank ha ht htype => exact .reference hblank ha (hr _ _ ht) htype
  | later hblank ha ht _ ih => exact .later hblank ha (hr _ _ ht) (ih hmissing)

/-- A path that breaks for want of an entity misses one that is not there. -/
theorem Breaks.missing {name : String} (h : Breaks r e segments stop (.unregisteredTarget name)) :
    r.find? name = none := by
  generalize hfault : PathFault.unregisteredTarget name = fault at h
  induction h with
  | target _ _ ht =>
    cases hfault
    exact ht
  | later _ _ _ _ ih => exact ih hfault
  | _ => cases hfault

theorem keeps_resolve (hr : r.Within r') (root : Entity) (path : String) :
    r'.Keeps (resolve r root path) (resolve r' root path) where
  ok p hp := by
    obtain ⟨hpath, hwalk⟩ := resolve_eq_ok.mp hp
    exact resolve_eq_ok.mpr ⟨hpath, hwalk.within hr⟩
  error err herr hmisses := by
    obtain ⟨stop, fault, hbreaks, rfl⟩ := resolve_eq_error.mp herr
    refine resolve_eq_error.mpr ⟨stop, fault, hbreaks.within hr fun name hfault => ?_, rfl⟩
    exact hmisses name (hfault ▸ .target)
  missing err name herr hmisses := by
    obtain ⟨stop, fault, hbreaks, rfl⟩ := resolve_eq_error.mp herr
    cases hmisses
    exact hbreaks.missing

end AttributePath

/-! ## Plans -/

namespace Plan

open Registry (Within Keeps keeps_refl keeps_pure keeps_mapM keeps_get)

variable {r r' : Registry} {e : Entity}

theorem keeps_parse (entry : String × Value) :
    r.Keeps (Filter.parse entry) (Filter.parse entry) := by
  refine keeps_refl fun err name h => ?_
  exact (Filter.ofKey_of_parseKey (Filter.parse_eq_error.mp h)).not_misses

theorem keeps_ofFilter (hr : r.Within r') (root : Entity) (f : Filter) :
    r'.Keeps (Predicate.ofFilter r root f) (Predicate.ofFilter r' root f) := by
  refine (AttributePath.keeps_resolve hr root f.path).bind fun path => ?_
  exact keeps_refl fun err name h => (Predicate.ofValue_of_ofOperator h).not_misses

theorem keeps_predicateOf (hr : r.Within r') (root : Entity) (params : SearchParams) :
    r'.Keeps (predicateOf r root params) (predicateOf r' root params) := by
  refine (keeps_mapM keeps_parse params.entries).bind fun filters => ?_
  exact (keeps_mapM (keeps_ofFilter hr root) filters).bind fun parts =>
    keeps_pure (Predicate.all parts)

theorem keeps_resolveTerm (hr : r.Within r') (root : Entity) (t : SortTerm) :
    r'.Keeps (resolveTerm r root t) (resolveTerm r' root t) :=
  (AttributePath.keeps_resolve hr root t.property).bind fun _ => keeps_pure _

/-- What is planned in a registry is planned in a larger one. -/
theorem keeps_make (hr : r.Within r') (name : String) (params : SearchParams) (sort : SortOrder) :
    r'.Keeps (make r name params sort) (make r' name params sort) := by
  refine (keeps_get hr name).bind fun root => ?_
  refine (keeps_predicateOf hr root params).bind fun predicate => ?_
  exact (keeps_mapM (keeps_resolveTerm hr root) sort.terms).bind fun _ => keeps_pure _

/-- Entities under new names are not seen by the searches that did without them.  When an entity
is registered under a new name, every plan stays as it is, and so do its statements; and a search
that is refused is refused for the same reason, unless the reason was that this very entity was
missing, and then it is another one.  So it does not matter in which order entities under different
names are registered. -/
theorem new_entities_unseen (r : Registry) :
    (∀ e : Entity, r.find? e.name = none → ∀ name params sort,
      (∀ plan, make r name params sort = .ok plan →
        make (r.register e) name params sort = .ok plan) ∧
      ∀ err, make r name params sort = .error err →
        (make (r.register e) name params sort = .error err ↔ ¬ err.Misses e.name)) ∧
    ∀ entities entities' : List Entity, entities.Perm entities' →
      (entities.map Entity.name).Nodup → ∀ name params sort,
        make (r.registerAll entities).1 name params sort =
          make (r.registerAll entities').1 name params sort := by
  constructor
  · intro e hnew name params sort
    have hkeeps := keeps_make (Registry.within_register hnew) name params sort
    refine ⟨hkeeps.ok, fun err herr => ⟨fun hsame hmisses => ?_, fun hother => ?_⟩⟩
    · have hmissing := hkeeps.missing err e.name hsame hmisses
      rw [Registry.register, Keyed.find?_insert, if_pos rfl] at hmissing
      cases hmissing
    · refine hkeeps.error err herr fun missed hmisses => ?_
      have hne : e.name ≠ missed := by
        rintro rfl
        exact hother hmisses
      rw [Registry.register, Keyed.find?_insert, if_neg hne]
      exact (keeps_make (fun _ _ hd => hd) name params sort).missing err missed herr hmisses
  · intro entities entities' hperm hnames name params sort
    rw [Registry.registerAll_registry, Registry.registerAll_registry]
    exact congrArg (make · name params sort) (Keyed.foldl_insert_perm hperm hnames r)

def freelance : Registry :=
  Keyed.empty.insert (((Entity.bare "people" "people").withColumn "name" .text).withAttribute
    "firm" (.relation "firms" "firm_id" "id"))

def firms : Entity :=
  (Entity.bare "firms" "firms").withColumn "id" .integer

def unset (path : String) : SearchParams :=
  Dict.set Keyed.empty ("NULL_" ++ path) .null

theorem new_entities_unseen_firms :
    freelance.find? firms.name = none ∧
      (∃ plan, make freelance "people" (unset "name") .unsorted = .ok plan ∧
        make (freelance.register firms) "people" (unset "name") .unsorted = .ok plan) ∧
      make (freelance.register firms) "people" (unset "ghost") .unsorted =
        .error (.invalidPath "ghost" "ghost" (.noAttribute "people")) ∧
      make (freelance.register firms) "people" (unset "firm.id") .unsorted ≠
        .error (.invalidPath "firm.id" "firm" (.unregisteredTarget "firms")) ∧
      make (freelance.registerAll [firms, .bare "teams" "teams"]).1 "people" (unset "firm.id")
          .unsorted =
        make (freelance.registerAll [.bare "teams" "teams", firms]).1 "people" (unset "firm.id")
          .unsorted := by
  have hnew : freelance.find? firms.name = none := by decide +kernel
  obtain ⟨hgrown, horder⟩ := new_entities_unseen freelance
  have hsearch := hgrown firms hnew "people"
  have hname : (make freelance "people" (unset "name") .unsorted).toOption.isSome = true := by
    decide +kernel
  obtain ⟨plan, hplan⟩ := Option.isSome_iff_exists.mp hname
  have hplan := Success.toOption_eq_some.mp hplan
  refine ⟨hnew, ⟨plan, hplan, (hsearch _ _).1 plan hplan⟩, ?_, ?_, ?_⟩
  · refine ((hsearch _ _).2 _ rfl).mpr fun hmisses => ?_
    cases hmisses
  · exact fun hsame => ((hsearch _ _).2 _ rfl).mp hsame .target
  · exact horder _ _ (List.Perm.swap _ _ []) (by decide) "people" (unset "firm.id") .unsorted

end Plan
end TableSearch
