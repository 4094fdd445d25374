/-
What a plan and a page are refused for.

There is no plan when the entity is not registered, a key cannot be read, a path breaks or a value
does not suit its operator (`Plan.cause_of_make`).  None of this is the fault of a page, and over a
valid registry none of it is a relation that dangles.  So a page command whose page can be asked
for is never refused as a page: `Command.ne_invalidPage_of_execute`.
-/
import TableSearch.Proofs.CommandLine.Opening
import TableSearch.Proofs.Schema.Validation

namespace TableSearch

/-! ## Plans -/

/-- A path breaks at a relation whose target is not registered, or whose column is not declared. -/
inductive QueryError.Dangling : QueryError → Prop where
  | target {path segment target} : Dangling (.invalidPath path segment (.unregisteredTarget target))
  | column {path segment target column} :
      Dangling (.invalidPath path segment (.undeclaredColumn target column))

namespace Plan

inductive Cause (r : Registry) : QueryError → Prop where
  | entity {name} : Cause r (.unknownEntity name)
  | key {key err} (hkey : err.OfKey key) : Cause r err
  | path {e path err} (he : e ∈ r.items) (hfails : AttributePath.resolve r e path = .error err) :
      Cause r err
  | value {path err} (hvalue : err.OfValue path) : Cause r err

variable {r : Registry} {name : String} {params : SearchParams} {sort : SortOrder}
  {err : QueryError}

theorem cause_of_make (h : make r name params sort = .error err) : Cause r err := by
  cases hroot : r.get name with
  | error e =>
    rw [make, hroot] at h
    cases h
    rw [(Registry.get_eq_error.mp hroot).2]
    exact .entity
  | ok root =>
    have he : root ∈ r.items := Keyed.mem_of_find? (Registry.get_eq_ok.mp hroot)
    cases (make_eq_error hroot).mp h with
    | key _ _ hfault => exact .key hfault
    | filter _ _ _ hfails _ _ =>
      rcases Success.bind_eq_error.mp hfails with hfails | ⟨path, -, hfails⟩
      · exact .path he hfails
      · exact .value (Predicate.ofValue_of_ofOperator hfails)
    | term _ _ hfails _ _ => exact .path he hfails

/-- No path breaks at a relation of a valid registry. -/
theorem not_dangling_of_make (hvalid : r.validate = .ok ())
    (h : make r name params sort = .error err) : ¬ err.Dangling := by
  intro hdangling
  cases cause_of_make h with
  | entity => cases hdangling
  | key hkey =>
    rcases hkey with rfl | ⟨token, rfl⟩
    · cases hdangling
    · cases hdangling
  | path he hfails =>
    obtain ⟨stop, fault, hbreaks, rfl⟩ := AttributePath.resolve_eq_error.mp hfails
    have hfault := Registry.ofPath_of_breaks hvalid hbreaks he
    cases hdangling <;> simp [PathFault.OfPath] at hfault
  | value hvalue => cases hvalue <;> cases hdangling

theorem ne_invalidPage_of_make (h : make r name params sort = .error err) (fault : PageFault) :
    err ≠ .invalidPage fault := by
  rintro rfl
  cases cause_of_make h with
  | key hkey => simp [QueryError.OfKey] at hkey
  | path _ hfails =>
    obtain ⟨stop, fault, -, hsame⟩ := AttributePath.resolve_eq_error.mp hfails
    cases hsame
  | value hvalue => cases hvalue

end Plan

/-! ## Pages -/

theorem PageRequest.make_of_limit {page limit : UInt32} (hpage : page ≠ 0)
    (hlimit : 1 ≤ limit.toNat ∧ limit.toNat ≤ 500) : ∃ request, make page limit = .ok request := by
  have hpage : 1 ≤ page.toNat := by
    rw [ne_eq, ← UInt32.toNat_inj] at hpage
    exact Nat.one_le_iff_ne_zero.mpr hpage
  refine ⟨⟨page, limit, .unsorted, hpage, hlimit.1, hlimit.2⟩, ?_⟩
  rw [make, dif_pos hpage]
  exact dif_pos hlimit

namespace Repository

variable {rp : Repository} {params : SearchParams} {request : PageRequest} {err : QueryError}
  {statement : Sql.Statement}

theorem fetch_ne_query : rp.fetch statement ≠ .error (.query err) := by
  intro h
  rcases Success.bind_eq_error.mp h with h | ⟨_, -, h⟩
  · obtain ⟨_, -, h⟩ := Success.mapError_eq_error.mp h
    cases h
  · cases h

theorem fetchTotal_ne_query : rp.fetchTotal statement ≠ .error (.query err) := by
  intro h
  obtain ⟨_, -, h⟩ := Success.mapError_eq_error.mp h
  cases h

/-- A page is at fault for its plan, or the driver is. -/
theorem make_of_page (h : rp.page params request = .error (.query err)) :
    Plan.make rp.registry rp.entity params request.sort = .error err := by
  rcases Success.bind_eq_error.mp h with h | ⟨plan, -, h⟩
  · obtain ⟨cause, hcause, hsame⟩ := Success.mapError_eq_error.mp h
    cases hsame
    exact hcause
  · rcases Success.bind_eq_error.mp h with h | ⟨content, -, h⟩
    · exact absurd h fetch_ne_query
    · dsimp only at h
      split at h
      · cases h
      · rcases Success.bind_eq_error.mp h with h | ⟨total, -, h⟩
        · exact absurd h fetchTotal_ne_query
        · cases h

end Repository

/-- A pool that cannot be opened is the fault of its driver. -/
def Connector.BlamesDriver (connect : Connector) : Prop :=
  ∀ backend url cause, connect backend url = .error cause → ∃ fault, cause = .driver backend fault

theorem Pool.connect_blamesDriver (t : FileTree) (p : Places) :
    Connector.BlamesDriver (connect t p) := by
  intro backend url cause h
  cases backend with
  | postgres =>
    cases h
    exact ⟨_, rfl⟩
  | sqlite =>
    obtain ⟨fault, -, rfl⟩ := Success.mapError_eq_error.mp h
    exact ⟨fault, rfl⟩

namespace Command

variable {connect : Connector} {s : Settings} {search : SearchArguments} {terms : List SortTerm}
  {number : UInt32} {limit : Option UInt32} {entity : String} {err : RunError} {fault : PageFault}

/-- What a repository is refused for is no page. -/
theorem ne_invalidPage_of_repository (hconnect : connect.BlamesDriver)
    (h : repository connect s entity = .error err) : err.cause? ≠ some (.invalidPage fault) := by
  rcases Success.bind_eq_error.mp h with h | ⟨e, he, h⟩
  · obtain ⟨cause, hcause, rfl⟩ := Success.mapError_eq_error.mp h
    rw [(Registry.get_eq_error.mp hcause).2]
    simp [RunError.cause?]
  · rcases Success.bind_eq_error.mp h with h | ⟨url, -, h⟩
    · obtain ⟨cause, hcause, rfl⟩ := Success.mapError_eq_error.mp h
      unfold Settings.requireUrl at hcause
      split at hcause
      · cases hcause
      · cases hcause
        simp [RunError.cause?, SettingsError.cause?]
    · rcases Success.bind_eq_error.mp h with h | ⟨pool, -, h⟩
      · obtain ⟨cause, hcause, rfl⟩ := Success.mapError_eq_error.mp h
        obtain ⟨fault, rfl⟩ := hconnect _ _ _ hcause
        simp [RunError.cause?, RunError.dataCause?]
      · rw [Repository.make, Success.mapError_eq_ok.mp he] at h
        cases h

/-- A page that can be asked for is not refused as a page. -/
theorem ne_invalidPage_of_execute (hconnect : connect.BlamesDriver)
    (hpage : (Command.page search terms number limit).PageValid s)
    (h : (Command.page search terms number limit).execute connect s = .error err) :
    err.cause? ≠ some (.invalidPage fault) := by
  obtain ⟨request, hrequest⟩ := hpage
  rw [execute, hrequest] at h
  change (repository connect s search.entity >>= _) = _ at h
  rcases Success.bind_eq_error.mp h with h | ⟨rp, -, h⟩
  · exact ne_invalidPage_of_repository hconnect h
  · rcases Success.bind_eq_error.mp h with h | ⟨page, -, h⟩
    · obtain ⟨cause, hcause, rfl⟩ := Success.mapError_eq_error.mp h
      cases cause with
      | driver backend cause => simp [RunError.cause?, RunError.dataCause?]
      | query cause =>
        have hplan := Plan.ne_invalidPage_of_make (Repository.make_of_page hcause) fault
        simpa [RunError.cause?, RunError.dataCause?] using hplan
    · cases h

end Command

end TableSearch
