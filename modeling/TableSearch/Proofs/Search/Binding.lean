/-
What filters bind.

A driver binds single values only.  The operators look at the values they take, and an equality
looks at nothing but null, so a list passes through an equality alone.  `lists_by_equality` says
that this is the only way in which binding fails, that it fails before anything is sent, and that
null is bound nowhere but among the items of a list.
-/
import TableSearch.Proofs.Search.Refusal
import TableSearch.Proofs.Sql.Nesting
import TableSearch.Proofs.Sql.Placeholder

namespace TableSearch

namespace Filter

/-- The values that a filter binds: its own or the pattern of it, the items of a list under the
membership operator, and none where it tests for null. -/
def bound (f : Filter) : List Value :=
  match f.operator with
  | .eq | .notEq => if f.value.isNull then [] else [f.value]
  | .gt | .gte | .lt | .lte => [f.value]
  | .like =>
      (f.value.patternText?.map fun text =>
        Value.text (Text.containsPattern Predicate.likeEscape text)).toList
  | .null | .notNull => []
  | .isIn =>
      match f.value with
      | .list items => items
      | _ => []

def EquatesList (f : Filter) : Prop :=
  (f.operator = .eq ∨ f.operator = .notEq) ∧ f.value.kind = .list

end Filter

namespace SearchParams

def EquatesList (params : SearchParams) : Prop :=
  ∃ entry ∈ params.entries, ∃ f, Filter.parse entry = .ok f ∧ f.EquatesList

end SearchParams

namespace Predicate

variable {path : AttributePath} {operator : Operator} {value : Value} {p : Predicate} {f : Filter}

/-! ## One filter -/

theorem Leaf.values_eq (h : Leaf path operator value p) (key : String) :
    p.values = Filter.bound ⟨key, operator, value⟩ := by
  have hsingle : value.kind ≠ .null → [value] = if value.isNull then [] else [value] := by
    intro hkind
    rw [if_neg fun hnull => hkind (Value.isNull_iff.mp hnull)]
  cases h with
  | eq hkind => exact hsingle hkind
  | notEq hkind => exact hsingle hkind
  | like htext =>
    show [_] = (value.patternText?.map _).toList
    rw [htext]
    rfl
  | _ => rfl

/-- What has an order is a single value. -/
theorem single_of_ordered {type : ColumnType} (h : value.Ordered type) :
    value.kind ≠ .list ∧ value.kind ≠ .null := by
  rcases h with ⟨_, h | h⟩ | ⟨_, h⟩ | ⟨_, h⟩ <;> simp [h]

/-- Of the values that a filter binds, those of an ordering, a search and a membership are no
lists. -/
theorem kind_ne_list_of_bound (htakes : f.operator.Takes path.type f.value)
    (hequality : ¬ (f.operator = .eq ∨ f.operator = .notEq)) :
    ∀ v ∈ f.bound, v.kind ≠ .list := by
  obtain ⟨key, operator, value⟩ := f
  have hordered : value.Ordered path.type → ∀ v ∈ [value], v.kind ≠ .list := by
    intro h v hv
    rw [List.mem_singleton.mp hv]
    exact (single_of_ordered h).1
  cases operator with
  | eq => exact absurd (.inl rfl) hequality
  | notEq => exact absurd (.inr rfl) hequality
  | gt => exact hordered htakes
  | gte => exact hordered htakes
  | lt => exact hordered htakes
  | lte => exact hordered htakes
  | like =>
    intro v hv
    obtain ⟨text, _, rfl⟩ := Option.map_eq_some_iff.mp (Option.mem_toList.mp hv)
    exact fun h => nomatch h
  | null => exact List.forall_mem_nil _
  | notNull => exact List.forall_mem_nil _
  | isIn =>
    obtain ⟨items, rfl, hitems⟩ := htakes
    exact hitems

/-- A filter that was built binds a list exactly when it equates one. -/
theorem list_mem_bound (htakes : f.operator.Takes path.type f.value) :
    (∃ v ∈ f.bound, v.kind = .list) ↔ f.EquatesList := by
  by_cases hequality : f.operator = .eq ∨ f.operator = .notEq
  · have hbound : f.bound = if f.value.isNull then [] else [f.value] := by
      rcases hequality with h | h <;> rw [Filter.bound, h]
    rw [hbound, Filter.EquatesList, and_iff_right hequality]
    cases f.value <;> simp [Value.isNull, Value.kind]
  · refine iff_of_false ?_ fun h => hequality h.1
    rintro ⟨v, hv, hlist⟩
    exact kind_ne_list_of_bound htakes hequality v hv hlist

/-- Equalities test for null, and what has an order or a text is not null. -/
theorem operator_of_null_mem_bound (htakes : f.operator.Takes path.type f.value)
    (h : Value.null ∈ f.bound) : f.operator = .isIn := by
  obtain ⟨key, operator, value⟩ := f
  have hequality : Value.null ∉ if value.isNull then [] else [value] := by
    cases value <;> simp [Value.isNull]
  have hordered : value.Ordered path.type → Value.null ∉ [value] := by
    intro h hmem
    refine (single_of_ordered h).2 ?_
    rw [← List.mem_singleton.mp hmem]
    rfl
  cases operator with
  | eq => exact absurd h hequality
  | notEq => exact absurd h hequality
  | gt => exact absurd h (hordered htakes)
  | gte => exact absurd h (hordered htakes)
  | lt => exact absurd h (hordered htakes)
  | lte => exact absurd h (hordered htakes)
  | like =>
    obtain ⟨text, _, htext⟩ := Option.map_eq_some_iff.mp (Option.mem_toList.mp h)
    cases htext
  | null => cases h
  | notNull => cases h
  | isIn => rfl

/-! ## All filters -/

section Filters

variable {r : Registry} {root : Entity} {fs : List Filter} {ps : List Predicate}

theorem values_tested (h : List.Forall₂ (Tested r root) fs ps) :
    ps.flatMap values = fs.flatMap Filter.bound := by
  induction h with
  | nil => rfl
  | @cons f _ _ _ hp _ ih =>
    obtain ⟨_, _, _, hleaf⟩ := hp
    rw [List.flatMap_cons, hleaf.values_eq f.path, ih, List.flatMap_cons]

/-- A predicate binds the values of its filters, one filter after the other. -/
theorem values_ofFilters {p : Predicate} (h : ofFilters r root fs = .ok p) :
    p.values = fs.flatMap Filter.bound ∧ ∀ f ∈ fs, Fits r root f := by
  obtain ⟨parts, hparts, h⟩ := Success.bind_eq_ok.mp h
  cases h
  have htested : List.Forall₂ (Tested r root) fs parts :=
    (Success.mapM_eq_ok.mp hparts).imp fun _ _ => ofFilter_eq_ok.mp
  refine ⟨(values_all parts).trans (values_tested htested), fun f hf => fits_iff.mpr ?_⟩
  exact Success.exists_mapM_eq_ok.mp ⟨parts, hparts⟩ f hf

end Filters

end Predicate

namespace Plan

variable {r : Registry} {name : String} {params : SearchParams} {sort : SortOrder} {plan : Plan}

/-- A plan's filters, which are the entries as they were read. -/
theorem filters_of_make (h : make r name params sort = .ok plan) :
    ∃ fs, Filter.parseAll params.entries = .ok fs ∧
      plan.predicate.values = fs.flatMap Filter.bound ∧
        ∀ f ∈ fs, Predicate.Fits r plan.entity f := by
  obtain ⟨fs, hfs, hfilters⟩ := Success.bind_eq_ok.mp (make_eq_ok h).2.1
  exact ⟨fs, hfs, Predicate.values_ofFilters hfilters⟩

/-- The filters of a plan bind a list exactly when one of them equates one. -/
theorem list_mem_values (h : make r name params sort = .ok plan) :
    (∃ v ∈ plan.predicate.values, v.kind = .list) ↔ params.EquatesList := by
  obtain ⟨fs, hfs, hvalues, hfits⟩ := filters_of_make h
  have hparsed := Success.mapM_eq_ok.mp hfs
  rw [hvalues]
  constructor
  · rintro ⟨v, hv, hlist⟩
    obtain ⟨f, hf, hv⟩ := List.mem_flatMap.mp hv
    obtain ⟨path, _, htakes⟩ := hfits f hf
    obtain ⟨entry, hentry, hparse⟩ := Success.exists_of_mem_right hparsed hf
    exact ⟨entry, hentry, f, hparse, (Predicate.list_mem_bound htakes).mp ⟨v, hv, hlist⟩⟩
  · rintro ⟨entry, hentry, f, hparse, hequates⟩
    obtain ⟨f', hf', hparse'⟩ := Success.exists_of_mem_right hparsed.flip hentry
    cases hparse.symm.trans hparse'
    obtain ⟨path, _, htakes⟩ := hfits f hf'
    obtain ⟨v, hv, hlist⟩ := (Predicate.list_mem_bound htakes).mpr hequates
    exact ⟨v, List.mem_flatMap.mpr ⟨f, hf', hv⟩, hlist⟩

/-- A window binds numbers. -/
theorem kind_windowValues (w : Option Sql.Window) :
    ∀ v ∈ Sql.Draft.windowValues w, v.kind = .integer := by
  cases w with
  | none => exact List.forall_mem_nil _
  | some w => simp [Sql.Draft.windowValues, Value.kind]

theorem list_mem_select (h : make r name params sort = .ok plan) (w : Option Sql.Window) :
    (∃ v ∈ (plan.select w).params, v.kind = .list) ↔ params.EquatesList := by
  rw [← list_mem_values h, select, Sql.Statement.select_params]
  constructor
  · rintro ⟨v, hv, hlist⟩
    rcases List.mem_append.mp hv with hv | hv
    · exact ⟨v, hv, hlist⟩
    · rw [kind_windowValues w v hv] at hlist
      cases hlist
  · rintro ⟨v, hv, hlist⟩
    exact ⟨v, List.mem_append_left _ hv, hlist⟩

theorem list_mem_count (h : make r name params sort = .ok plan) :
    (∃ v ∈ plan.count.params, v.kind = .list) ↔ params.EquatesList := by
  rw [← list_mem_values h, count, Sql.Statement.count_params]

/-- A plan without an order differs in its order only. -/
theorem make_unsorted (h : make r name params sort = .ok plan) :
    ∃ plain, make r name params .unsorted = .ok plain := by
  obtain ⟨root, hroot, h⟩ := Success.bind_eq_ok.mp h
  obtain ⟨predicate, hpredicate, _⟩ := Success.bind_eq_ok.mp h
  exact ⟨_, Success.bind_eq_ok.mpr
    ⟨root, hroot, Success.bind_eq_ok.mpr ⟨predicate, hpredicate, rfl⟩⟩⟩

end Plan

/-! ## Operations -/

/-- Every operation of a service fails alike and leaves the state as it is. -/
structure Service.Fails {σ : Type} (service : Service σ) (rp : Repository)
    (params : SearchParams) (sort : SortOrder) (s : σ) (err : DataError) : Prop where
  sorted : service.sorted rp params sort s = (.error err, s)
  page : ∀ request, request.sort = sort → service.page rp params request s = (.error err, s)
  query : service.query rp params s = (.error err, s)
  count : service.count rp params s = (.error err, s)

structure Repository.Fails (rp : Repository) (params : SearchParams) (sort : SortOrder)
    (err : DataError) : Prop where
  sorted : rp.sorted params sort = .error err
  page : ∀ request, request.sort = sort → rp.page params request = .error err
  query : rp.query params = .error err
  count : rp.count params = .error err

namespace Repository

variable {rp : Repository} {params : SearchParams} {sort : SortOrder} {plan : Plan}

theorem bind_eq_error_of_list {values : List Value} (h : ∃ v ∈ values, v.kind = .list) :
    bind values = .error (.encode .list) := by
  unfold bind
  cases hfind : values.find? Value.isList with
  | none =>
    obtain ⟨v, hv, hlist⟩ := h
    exact absurd (Value.isList_iff.mpr hlist) (List.find?_eq_none.mp hfind v hv)
  | some v =>
    show Except.error (DriverError.encode v.kind) = _
    rw [Value.isList_iff.mp (List.find?_some hfind)]

theorem bind_eq_ok_of_no_list {values : List Value} (h : ¬ ∃ v ∈ values, v.kind = .list) :
    bind values = .ok () :=
  bind_eq_ok.mpr fun v hv =>
    Bool.eq_false_iff.mpr fun hlist => h ⟨v, hv, Value.isList_iff.mp hlist⟩

section Services

variable {σ α : Type} {service : Service σ} {s : σ}

theorem send_fails {backend : Backend} {values : List Value}
    {answer : StateM σ (Except DriverError α)} (h : ∃ v ∈ values, v.kind = .list) :
    Service.send backend values answer s = (.error (.driver backend (.encode .list)), s) := by
  unfold Service.send
  rw [bind_eq_error_of_list h]
  rfl

theorem fetch_fails {st : Sql.Statement} (h : ∃ v ∈ st.params, v.kind = .list) :
    service.fetch rp st s = (.error (.driver rp.backend (.encode .list)), s) :=
  Service.bind_error (send_fails h)

theorem plan_service (h : Plan.make rp.registry rp.entity params sort = .ok plan) :
    (liftM (rp.plan params sort) : ExceptT DataError (StateM σ) Plan) s = (.ok plan, s) := by
  unfold Repository.plan
  rw [h]
  rfl

theorem service_fails (service : Service σ) (s : σ)
    (h : Plan.make rp.registry rp.entity params sort = .ok plan) (hlist : params.EquatesList) :
    service.Fails rp params sort s (.driver rp.backend (.encode .list)) := by
  obtain ⟨plain, hplain⟩ := Plan.make_unsorted h
  refine ⟨?_, ?_, ?_, ?_⟩
  · exact (Service.bind_ok (plan_service h)).trans
      (fetch_fails ((Plan.list_mem_select h none).mpr hlist))
  · rintro request rfl
    exact (Service.bind_ok (plan_service h)).trans
      (Service.bind_error (fetch_fails ((Plan.list_mem_select h _).mpr hlist)))
  · exact (Service.bind_ok (plan_service hplain)).trans
      (fetch_fails ((Plan.list_mem_select hplain none).mpr hlist))
  · exact (Service.bind_ok (plan_service hplain)).trans
      (send_fails ((Plan.list_mem_count hplain).mpr hlist))

end Services

theorem fails (h : Plan.make rp.registry rp.entity params sort = .ok plan)
    (hlist : params.EquatesList) :
    rp.Fails params sort (.driver rp.backend (.encode .list)) := by
  have hpool := service_fails Service.ofPool rp.pool h hlist
  constructor
  · exact congrArg Prod.fst ((Service.sorted_ofPool sort).symm.trans hpool.sorted)
  · intro request hsort
    exact congrArg Prod.fst ((Service.page_ofPool request).symm.trans (hpool.page request hsort))
  · exact congrArg Prod.fst (Service.query_ofPool.symm.trans hpool.query)
  · exact congrArg Prod.fst (Service.count_ofPool.symm.trans hpool.count)

/-- Binding fails only for an equality with a list.  The two statements of a plan have a list
among their parameters exactly when some filter equates one.  When one does, every operation
fails with an error of the backend, on every service in every state, which stays as it was.
When none does, the parameters of both statements can be bound.  They are the values of the
filters, one filter after the other, and then those of the window; and null is a value of a
membership filter only, where it is an item of the list. -/
theorem lists_by_equality {r : Registry} {name : String}
    (h : Plan.make r name params sort = .ok plan) :
    ((∀ w, (∃ v ∈ (plan.select w).params, v.kind = .list) ↔ params.EquatesList) ∧
      ((∃ v ∈ plan.count.params, v.kind = .list) ↔ params.EquatesList)) ∧
    (params.EquatesList → ∀ rp : Repository, rp.registry = r → rp.entity = name →
      rp.Fails params sort (.driver rp.backend (.encode .list)) ∧
        ∀ (σ : Type) (service : Service σ) (s : σ),
          service.Fails rp params sort s (.driver rp.backend (.encode .list))) ∧
    (¬ params.EquatesList →
      (∀ w, bind (plan.select w).params = .ok ()) ∧ bind plan.count.params = .ok ()) ∧
    ∃ fs, Filter.parseAll params.entries = .ok fs ∧
      plan.count.params = fs.flatMap Filter.bound ∧
      (∀ w, ∃ bounds, (plan.select w).params = fs.flatMap Filter.bound ++ bounds ∧
        Sql.Window.Binds w bounds) ∧
      ∀ f ∈ fs, Value.null ∈ f.bound → f.operator = .isIn ∧ f.value = .list f.bound := by
  refine ⟨⟨Plan.list_mem_select h, Plan.list_mem_count h⟩, ?_, ?_, ?_⟩
  · rintro hlist rp rfl rfl
    exact ⟨fails h hlist, fun σ service s => service_fails service s h hlist⟩
  · intro hno
    exact ⟨fun w => bind_eq_ok_of_no_list fun hlist => hno ((Plan.list_mem_select h w).mp hlist),
      bind_eq_ok_of_no_list fun hlist => hno ((Plan.list_mem_count h).mp hlist)⟩
  · obtain ⟨fs, hfs, hvalues, hfits⟩ := Plan.filters_of_make h
    refine ⟨fs, hfs, (Sql.Statement.count_params _ _).trans hvalues, fun w => ?_, ?_⟩
    · refine ⟨Sql.Draft.windowValues w, ?_, Sql.Window.binds_windowValues w⟩
      rw [← hvalues]
      exact Sql.Statement.select_params _ _ _ w
    · intro f hf hnull
      obtain ⟨path, _, htakes⟩ := hfits f hf
      have hop := Predicate.operator_of_null_mem_bound htakes hnull
      refine ⟨hop, ?_⟩
      rw [hop] at htakes
      obtain ⟨items, hitems, _⟩ := htakes
      rw [Filter.bound, hop, hitems]

def listed : SearchParams :=
  Dict.set Keyed.empty "NOTEQ_manager.name" (.list [.text "Ben", .null])

theorem listed_equates : listed.EquatesList :=
  ⟨_, List.mem_singleton_self _, _, rfl, .inr rfl, rfl⟩

theorem managed_equates_none : ¬ Plan.managed.EquatesList := by
  rintro ⟨entry, hentry, f, hf, _, hlist⟩
  rw [Filter.value_of_parse hf, List.mem_singleton.mp hentry] at hlist
  cases hlist

theorem lists_by_equality_people :
    (∃ plan, Plan.make Plan.people "people" listed .unsorted = .ok plan ∧
      ∃ v ∈ plan.count.params, v.kind = .list) ∧
    shut.count listed = .error (.driver .postgres (.encode .list)) ∧
    ∃ plan, Plan.make Plan.people "people" Plan.managed .unsorted = .ok plan ∧
      bind plan.count.params = .ok () := by
  have hmade : ∀ params,
      (Plan.make Plan.people "people" params .unsorted).toOption.isSome = true →
        ∃ plan, Plan.make Plan.people "people" params .unsorted = .ok plan := by
    intro params h
    obtain ⟨plan, hplan⟩ := Option.isSome_iff_exists.mp h
    exact ⟨plan, Success.toOption_eq_some.mp hplan⟩
  obtain ⟨plan, hplan⟩ := hmade listed (by decide +kernel)
  obtain ⟨⟨_, hcount⟩, hfails, _⟩ := lists_by_equality hplan
  obtain ⟨single, hsingle⟩ := hmade Plan.managed (by decide +kernel)
  obtain ⟨_, _, hbinds, _⟩ := lists_by_equality hsingle
  exact ⟨⟨plan, hplan, hcount.mpr listed_equates⟩,
    (hfails listed_equates shut rfl rfl).1.count, single, hsingle,
    (hbinds managed_equates_none).2⟩

end Repository
end TableSearch
