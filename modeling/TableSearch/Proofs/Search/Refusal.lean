/-
Searches that are refused.

A plan is made in three stages, and each stage is run whole: all keys are read, then all filters
are followed and built, and then the terms of the sort order are followed.  `Plan.Refused` says
which fault of which stage is reported, and `Plan.make_eq_error` that a plan fails with this fault
and no other.  Every operation makes its plan first, so a refused search is refused alike by
every service, in every state of it, and leaves the state as it was:
`Repository.refused_before_database`.
-/
import TableSearch.Proofs.Predicate.Build
import TableSearch.Proofs.Schema.Break
import TableSearch.Proofs.Search.Compilation
import TableSearch.Proofs.Search.Service
import TableSearch.Proofs.Text.ByteOrder

namespace TableSearch

namespace QueryError

def OfKey (key : String) (e : QueryError) : Prop :=
  e = .malformedKey key ∨ ∃ token, e = .unknownOperator token key

def OfPath (path : String) (e : QueryError) : Prop :=
  ∃ segment fault, e = .invalidPath path segment fault

inductive OfValue (path : String) : QueryError → Prop where
  | order {kind type} : OfValue path (.notComparable path kind type)
  | list {fault} : OfValue path (.invalidList path fault)
  | pattern {kind type} : OfValue path (.invalidPattern path kind type)

end QueryError

namespace Filter

variable {key : String} {err : QueryError}

theorem ofKey_of_parseKey (h : parseKey key = .error err) : err.OfKey key := by
  rcases parseKey_eq_error.mp h with ⟨_, rfl⟩ | ⟨_, token, _, _, _, rfl⟩
  · exact .inl rfl
  · exact .inr ⟨token, rfl⟩

end Filter

namespace AttributePath

theorem ofPath_of_resolve {r : Registry} {root : Entity} {path : String} {err : QueryError}
    (h : resolve r root path = .error err) : err.OfPath path := by
  obtain ⟨stop, fault, _, rfl⟩ := resolve_eq_error.mp h
  exact ⟨stop, fault, rfl⟩

end AttributePath

namespace Predicate

theorem ofValue_of_ofOperator {path : AttributePath} {operator : Operator} {value : Value}
    {err : QueryError} (h : ofOperator path operator value = .error err) :
    err.OfValue path.path := by
  obtain ⟨_, rfl⟩ := ofOperator_eq_error.mp h
  cases operator with
  | like => exact .pattern
  | isIn => exact .list
  | _ => exact .order

end Predicate

namespace Plan

variable {r : Registry} {root : Entity} {name : String} {params : SearchParams} {sort : SortOrder}
  {err : QueryError}

def buildEntry (r : Registry) (root : Entity) (entry : String × Value) :
    Except QueryError Predicate := do
  let f ← Filter.parse entry
  Predicate.ofFilter r root f

/-- The bytes of a key are smaller than those of another one. -/
def Before (entry other : String × Value) : Prop :=
  Utf8.encode entry.1.toList < Utf8.encode other.1.toList

/-- Which fault of a search is reported: that of the first key that cannot be read; if there is
none, that of the first filter that cannot be built; and if there is none, that of the first sort
term that cannot be followed. -/
inductive Refused (r : Registry) (root : Entity) (params : SearchParams) (sort : SortOrder) :
    QueryError → Prop where
  | key {entry err} (hmem : entry ∈ params.entries)
      (hfails : Filter.parseKey entry.1 = .error err) (hfault : err.OfKey entry.1)
      (hfirst : ∀ other ∈ params.entries, Before other entry → ∃ f, Filter.parse other = .ok f) :
      Refused r root params sort err
  | filter {entry f err} (hkeys : ∀ other ∈ params.entries, ∃ f, Filter.parse other = .ok f)
      (hmem : entry ∈ params.entries) (hf : Filter.parse entry = .ok f)
      (hfails : Predicate.ofFilter r root f = .error err)
      (hfault : err.OfPath f.path ∨ err.OfValue f.path)
      (hfirst : ∀ other ∈ params.entries, Before other entry →
        ∃ p, buildEntry r root other = .ok p) :
      Refused r root params sort err
  | term {before t after err}
      (hfilters : ∀ other ∈ params.entries, ∃ p, buildEntry r root other = .ok p)
      (hsplit : sort.terms = before ++ t :: after)
      (hfails : AttributePath.resolve r root t.property = .error err)
      (hfault : err.OfPath t.property)
      (hfirst : ∀ b ∈ before, ∃ path, AttributePath.resolve r root b.property = .ok path) :
      Refused r root params sort err

/-! ## One stage after the other -/

theorem before_iff {entry other : String × Value} : Before entry other ↔ entry.1 < other.1 :=
  Utf8.encode_lt_iff

theorem fault_of_ofFilter {f : Filter} (h : Predicate.ofFilter r root f = .error err) :
    err.OfPath f.path ∨ err.OfValue f.path := by
  rcases Success.bind_eq_error.mp h with h | ⟨path, hpath, h⟩
  · exact .inl (AttributePath.ofPath_of_resolve h)
  · right
    rw [← AttributePath.path_of_resolve hpath]
    exact Predicate.ofValue_of_ofOperator h

theorem parseAll_eq_error : Filter.parseAll params.entries = .error err ↔
    ∃ entry ∈ params.entries, Filter.parseKey entry.1 = .error err ∧
      ∀ other ∈ params.entries, Before other entry → ∃ f, Filter.parse other = .ok f := by
  simp only [before_iff, ← Filter.parse_eq_error]
  exact Success.mapM_keyed_eq_error

theorem parseAll_eq_ok {fs : List Filter} (h : Filter.parseAll params.entries = .ok fs) :
    ∀ entry ∈ params.entries, ∃ f, Filter.parse entry = .ok f :=
  Success.exists_mapM_eq_ok.mp ⟨fs, h⟩

theorem ofFilters_eq_error {fs : List Filter} (h : Filter.parseAll params.entries = .ok fs) :
    Predicate.ofFilters r root fs = .error err ↔
      ∃ entry ∈ params.entries, buildEntry r root entry = .error err ∧
        ∀ other ∈ params.entries, Before other entry →
          ∃ p, buildEntry r root other = .ok p := by
  have hstage : Predicate.ofFilters r root fs = .error err ↔
      params.items.mapM (buildEntry r root) = .error err := by
    have hbuilt : params.items.mapM (buildEntry r root) = fs.mapM (Predicate.ofFilter r root) :=
      Success.mapM_bind h
    unfold Predicate.ofFilters
    rw [hbuilt, Success.bind_eq_error]
    constructor
    · rintro (h | ⟨parts, _, h⟩)
      · exact h
      · cases h
    · exact .inl
  simp only [before_iff]
  exact hstage.trans Success.mapM_keyed_eq_error

theorem resolveTerms_eq_error : sort.terms.mapM (resolveTerm r root) = .error err ↔
    ∃ before t after, sort.terms = before ++ t :: after ∧
      AttributePath.resolve r root t.property = .error err ∧
      ∀ b ∈ before, ∃ path, AttributePath.resolve r root b.property = .ok path := by
  have hterm : ∀ t : SortTerm, resolveTerm r root t =
      (AttributePath.resolve r root t.property).map fun path =>
        { path, direction := t.direction, nulls := t.nulls } := by
    intro t
    unfold resolveTerm
    cases AttributePath.resolve r root t.property with
    | error e => rfl
    | ok path => rfl
  have hok : ∀ t : SortTerm, (∃ term, resolveTerm r root t = .ok term) ↔
      ∃ path, AttributePath.resolve r root t.property = .ok path := by
    intro t
    rw [hterm]
    cases AttributePath.resolve r root t.property with
    | error e => simp [Except.map]
    | ok path => simp [Except.map]
  simp only [Success.mapM_eq_error, hok]
  simp only [hterm, Success.map_eq_error]

theorem predicateOf_eq_error : predicateOf r root params = .error err ↔
    Filter.parseAll params.entries = .error err ∨
      ∃ fs, Filter.parseAll params.entries = .ok fs ∧
        Predicate.ofFilters r root fs = .error err :=
  Success.bind_eq_error

theorem parse_of_built {entry : String × Value} (h : ∃ p, buildEntry r root entry = .ok p) :
    ∃ f, Filter.parse entry = .ok f := by
  obtain ⟨p, h⟩ := h
  obtain ⟨f, hf, _⟩ := Success.bind_eq_ok.mp h
  exact ⟨f, hf⟩

/-- There is a predicate when every entry has one. -/
theorem exists_predicateOf : (∃ p, predicateOf r root params = .ok p) ↔
    ∀ entry ∈ params.entries, ∃ p, buildEntry r root entry = .ok p := by
  constructor
  · rintro ⟨p, h⟩
    obtain ⟨fs, hfs, h⟩ := Success.bind_eq_ok.mp h
    obtain ⟨parts, hparts, _⟩ := Success.bind_eq_ok.mp h
    exact Success.exists_mapM_eq_ok.mp ⟨parts, (Success.mapM_bind hfs).trans hparts⟩
  · intro h
    obtain ⟨fs, hfs⟩ : ∃ fs, Filter.parseAll params.entries = .ok fs :=
      Success.exists_mapM_eq_ok.mpr fun entry hentry => parse_of_built (h entry hentry)
    obtain ⟨parts, hparts⟩ := Success.exists_mapM_eq_ok.mpr h
    have hbuilt : fs.mapM (Predicate.ofFilter r root) = .ok parts :=
      (Success.mapM_bind hfs).symm.trans hparts
    exact ⟨Predicate.all parts, Success.bind_eq_ok.mpr ⟨fs, hfs,
      Success.bind_eq_ok.mpr ⟨parts, hbuilt, rfl⟩⟩⟩

/-- A plan for an entity fails with the fault that is reported. -/
theorem make_eq_error (hroot : r.get name = .ok root) :
    make r name params sort = .error err ↔ Refused r root params sort err := by
  have hmake : make r name params sort = .error err ↔
      predicateOf r root params = .error err ∨ (∃ p, predicateOf r root params = .ok p) ∧
        sort.terms.mapM (resolveTerm r root) = .error err := by
    have hterms : ∀ p, (sort.terms.mapM (resolveTerm r root) >>= fun terms =>
        (pure { entity := root, predicate := p, terms } : Except QueryError Plan)) = .error err ↔
          sort.terms.mapM (resolveTerm r root) = .error err := by
      intro p
      rw [Success.bind_eq_error]
      constructor
      · rintro (h | ⟨terms, _, h⟩)
        · exact h
        · cases h
      · exact .inl
    unfold make
    rw [hroot]
    show (predicateOf r root params >>= fun p => sort.terms.mapM (resolveTerm r root) >>= _) = _ ↔ _
    rw [Success.bind_eq_error]
    simp only [hterms, exists_and_right]
  rw [hmake, predicateOf_eq_error, exists_predicateOf, resolveTerms_eq_error]
  constructor
  · rintro ((hkeys | ⟨fs, hfs, hfilters⟩) | ⟨hbuilt, before, t, after, hsplit, hfails, hfirst⟩)
    · obtain ⟨entry, hmem, hfails, hfirst⟩ := parseAll_eq_error.mp hkeys
      exact .key hmem hfails (Filter.ofKey_of_parseKey hfails) hfirst
    · obtain ⟨entry, hmem, hfails, hfirst⟩ := (ofFilters_eq_error hfs).mp hfilters
      have hparsed := parseAll_eq_ok hfs
      obtain ⟨f, hf⟩ := hparsed entry hmem
      unfold buildEntry at hfails
      rw [hf] at hfails
      exact .filter hparsed hmem hf hfails (fault_of_ofFilter hfails) hfirst
    · exact .term hbuilt hsplit hfails (AttributePath.ofPath_of_resolve hfails) hfirst
  · intro h
    cases h with
    | key hmem hfails _ hfirst =>
      exact .inl (.inl (parseAll_eq_error.mpr ⟨_, hmem, hfails, hfirst⟩))
    | filter hkeys hmem hf hfails _ hfirst =>
      obtain ⟨fs, hfs⟩ : ∃ fs, Filter.parseAll params.entries = .ok fs :=
        Success.exists_mapM_eq_ok.mpr hkeys
      refine .inl (.inr ⟨fs, hfs, (ofFilters_eq_error hfs).mpr ⟨_, hmem, ?_, hfirst⟩⟩)
      unfold buildEntry
      rw [hf]
      exact hfails
    | term hfilters hsplit hfails _ hfirst =>
      exact .inr ⟨hfilters, _, _, _, hsplit, hfails, hfirst⟩

end Plan

/-! ## Operations -/

/-- Every operation of a service fails and leaves the state as it is. -/
structure Service.Refuses {σ : Type} (service : Service σ) (rp : Repository)
    (params : SearchParams) (sort : SortOrder) (s : σ) (err : QueryError) : Prop where
  sorted : service.sorted rp params sort s = (.error (.query err), s)
  page : ∀ request, request.sort = sort →
    service.page rp params request s = (.error (.query err), s)
  query : sort = .unsorted → service.query rp params s = (.error (.query err), s)
  count : sort = .unsorted → service.count rp params s = (.error (.query err), s)

structure Repository.Refuses (rp : Repository) (params : SearchParams) (sort : SortOrder)
    (err : QueryError) : Prop where
  sorted : rp.sorted params sort = .error (.query err)
  page : ∀ request, request.sort = sort → rp.page params request = .error (.query err)
  query : sort = .unsorted → rp.query params = .error (.query err)
  count : sort = .unsorted → rp.count params = .error (.query err)

namespace Repository

variable {rp : Repository} {params : SearchParams} {sort : SortOrder} {err : QueryError}

theorem service_refuses {σ : Type} (service : Service σ) (s : σ)
    (h : Plan.make rp.registry rp.entity params sort = .error err) :
    service.Refuses rp params sort s err := by
  have hplan : (liftM (rp.plan params sort) : ExceptT DataError (StateM σ) Plan) s =
      (.error (.query err), s) := by
    unfold plan
    rw [h]
    rfl
  refine ⟨Service.bind_error hplan, ?_, ?_, ?_⟩
  · rintro request rfl
    exact Service.bind_error hplan
  · rintro rfl
    exact Service.bind_error hplan
  · rintro rfl
    exact Service.bind_error hplan

/-- The pool of a repository is a service like any other. -/
theorem refuses (h : Plan.make rp.registry rp.entity params sort = .error err) :
    rp.Refuses params sort err := by
  have hpool := service_refuses Service.ofPool rp.pool h
  constructor
  · exact congrArg Prod.fst ((Service.sorted_ofPool sort).symm.trans hpool.sorted)
  · intro request hsort
    exact congrArg Prod.fst ((Service.page_ofPool request).symm.trans (hpool.page request hsort))
  · intro hsort
    exact congrArg Prod.fst (Service.query_ofPool.symm.trans (hpool.query hsort))
  · intro hsort
    exact congrArg Prod.fst (Service.count_ofPool.symm.trans (hpool.count hsort))

/-- A bad filter or sort term never reaches the database.  When there is no plan, one fault
decides the error, and every operation fails with it: on both backends, on every pool, and on
every service in every state, which stays as it was. -/
theorem refused_before_database {r : Registry} {root : Entity} {name : String}
    (hroot : r.get name = .ok root) (h : Plan.make r name params sort = .error err) :
    Plan.Refused r root params sort err ∧
      ∀ rp : Repository, rp.registry = r → rp.entity = name →
        rp.Refuses params sort err ∧
          ∀ (σ : Type) (service : Service σ) (s : σ), service.Refuses rp params sort s err := by
  refine ⟨(Plan.make_eq_error hroot).mp h, ?_⟩
  rintro rp rfl rfl
  exact ⟨refuses h, fun σ service s => service_refuses service s h⟩

def misspelt : SearchParams :=
  Dict.set (Dict.set Keyed.empty "EQ_ghost" .null) "SOME_name" (.text "Ben")

def shut : Repository where
  backend := .postgres
  pool := .closed
  registry := Plan.people
  entity := "people"

theorem refused_before_database_shut :
    Plan.make Plan.people "people" misspelt (.ofTerm { property := "ghost" }) =
      .error (.unknownOperator "SOME" "SOME_name") ∧
    shut.sorted misspelt (.ofTerm { property := "ghost" }) =
      .error (.query (.unknownOperator "SOME" "SOME_name")) := by
  obtain ⟨root, hroot⟩ : ∃ root, Plan.people.get "people" = .ok root := by
    obtain ⟨root, hroot⟩ := Option.isSome_iff_exists.mp
      (show (Plan.people.get "people").toOption.isSome = true by decide +kernel)
    exact ⟨root, Success.toOption_eq_some.mp hroot⟩
  have hplan : Plan.make Plan.people "people" misspelt (.ofTerm { property := "ghost" }) =
      .error (.unknownOperator "SOME" "SOME_name") := by
    rfl
  exact ⟨hplan, ((refused_before_database hroot hplan).2 shut rfl rfl).1.sorted⟩

end Repository
end TableSearch
