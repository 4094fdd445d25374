/-
What a command reports before and after a pool is opened.

A command looks its entity up, opens a pool, and only then plans its search.  So an entity that is
not registered is reported whatever the location holds, while a bad filter or sort term is
reported only behind an open pool, the same behind all of them, and gives way to the error of a
pool that cannot be opened: `execute_refused`.
-/
import TableSearch.CommandLine.Execution
import TableSearch.Proofs.Search.Refusal

namespace TableSearch
namespace Command

variable {connect : Connector} {s : Settings} {c : Command} {search : SearchArguments}
  {url : String} {e : Entity} {err : QueryError}

/-- The page that a command asks for, if it asks for one, can be asked for. -/
def PageValid (s : Settings) : Command → Prop
  | .page _ _ number limit =>
      ∃ request, PageRequest.make number (limit.getD s.defaultLimit) = .ok request
  | _ => True

/-! ## The steps of a search -/

/-- A command that searches makes its repository and then asks it one thing. -/
theorem execute_search (hsearch : c.search? = some search) (hpage : c.PageValid s) :
    ∃ answer : Repository → Except DataError Json.Node,
      (∀ connect, c.execute connect s = repository connect s search.entity >>= fun r =>
        (answer r).mapError (.search c.name.word search.entity)) ∧
      ∀ r err, r.Refuses search.params c.sort err → answer r = .error (.query err) := by
  cases c with
  | entities => cases hsearch
  | list search terms =>
    cases hsearch
    refine ⟨fun r => (r.sorted search.params ⟨terms⟩).map fun rows =>
      .array (rows.map Record.toMergedNode), fun connect => ?_, fun r err hrefuses => ?_⟩
    · exact bind_congr fun r => Success.mapError_bind_pure
    · exact Success.map_eq_error.mpr hrefuses.sorted
  | page search terms number limit =>
    cases hsearch
    obtain ⟨request, hrequest⟩ := hpage
    refine ⟨fun r => (r.page search.params (request.withSort ⟨terms⟩)).map pageNode,
      fun connect => ?_, fun r err hrefuses => ?_⟩
    · rw [execute, hrequest]
      exact bind_congr fun r => Success.mapError_bind_pure
    · exact Success.map_eq_error.mpr (hrefuses.page _ rfl)
  | count search =>
    cases hsearch
    refine ⟨fun r => (r.count search.params).map fun n : Nat =>
      .object [("entity", .string search.entity), ("count", .int n)], fun connect => ?_,
      fun r err hrefuses => ?_⟩
    · exact bind_congr fun r => Success.mapError_bind_pure
    · exact Success.map_eq_error.mpr (hrefuses.count rfl)

/-- A command for an entity that is not registered fails without asking for a pool. -/
theorem execute_unregistered (hsearch : c.search? = some search) (hpage : c.PageValid s)
    (hentity : s.registry.get search.entity = .error err) :
    c.execute connect s = .error (.query err) := by
  obtain ⟨answer, hexecute, -⟩ := execute_search hsearch hpage
  rw [hexecute, repository, hentity]
  rfl

def behind (s : Settings) (entity : String) (pool : Pool) : Repository where
  backend := s.backend
  pool
  registry := s.registry
  entity

/-- What is made of a registered entity waits for its pool only. -/
theorem repository_registered (hentity : s.registry.get search.entity = .ok e)
    (hurl : s.requireUrl = .ok url) :
    repository connect s search.entity = do
      let pool ← (connect s.backend url).mapError (RunError.opening s.backend url)
      return behind s search.entity pool := by
  have hmake : ∀ pool, Repository.make s.backend pool s.registry search.entity =
      .ok (behind s search.entity pool) := by
    intro pool
    rw [Repository.make, hentity]
    rfl
  rw [repository, hentity, hurl]
  show (connect s.backend url).mapError (RunError.opening s.backend url) >>= _ = _
  refine Success.bind_congr fun pool _ => ?_
  rw [hmake]
  rfl

/-! ## Behind an open pool -/

/-- A bad filter or sort term is reported once a pool is open.  The error names the command and
the entity and keeps what is wrong with the search, and is the same behind every pool.  A command
whose pool cannot be opened says so instead. -/
theorem execute_refused (hsearch : c.search? = some search) (hpage : c.PageValid s)
    (hurl : s.requireUrl = .ok url) (hentity : s.registry.get search.entity = .ok e)
    (hplan : Plan.make s.registry search.entity search.params c.sort = .error err) :
    ∃ refusal : RunError, refusal.cause? = some err ∧
      refusal.chain = ["Failed to " ++ c.name.word ++ " '" ++ search.entity ++ "'",
        (DataError.query err).message, err.message] ∧
      ∀ connect : Connector,
        (∀ pool, connect s.backend url = .ok pool → c.execute connect s = .error refusal) ∧
        ∀ cause, connect s.backend url = .error cause →
          c.execute connect s = .error (.opening s.backend url cause) := by
  refine ⟨.search c.name.word search.entity (.query err), rfl, rfl, fun connect => ?_⟩
  obtain ⟨answer, hexecute, hanswer⟩ := execute_search hsearch hpage
  rw [hexecute, repository_registered hentity hurl, bind_assoc]
  refine ⟨fun pool hopen => ?_, fun cause hclosed => ?_⟩
  · have hrefuses : (behind s search.entity pool).Refuses search.params c.sort err :=
      Repository.refuses hplan
    rw [hopen]
    show (answer (behind s search.entity pool)).mapError _ = _
    rw [hanswer _ _ hrefuses]
    rfl
  · rw [hclosed]
    rfl

def staff : Settings where
  backend := .sqlite
  url := some "/work/staff.db"
  maxConnections := Settings.defaultMaxConnections
  defaultLimit := defaultLimit
  registry := Plan.people

/-- The number of people with an attribute that is not there. -/
def countGhosts : Command := .count ⟨"people", [("EQ_ghost", .text "Ben")]⟩

theorem execute_refused_staff : ∃ refusal : RunError,
    refusal.cause? = some (.invalidPath "ghost" "ghost" (.noAttribute "people")) ∧
    countGhosts.execute (fun _ _ => .ok .unreachable) staff = .error refusal ∧
    ∀ cause, countGhosts.execute (fun _ _ => .error cause) staff =
      .error (.opening .sqlite "/work/staff.db" cause) := by
  have hentity : (staff.registry.get "people").toOption.isSome = true := by decide +kernel
  obtain ⟨people, hpeople⟩ := Option.isSome_iff_exists.mp hentity
  have hplan : (Plan.make staff.registry "people" (Dict.set Keyed.empty "EQ_ghost" (.text "Ben"))
      .unsorted).map (fun _ => ()) =
        .error (.invalidPath "ghost" "ghost" (.noAttribute "people")) := by decide +kernel
  obtain ⟨refusal, hcause, -, hreports⟩ := execute_refused (s := staff) (c := countGhosts) rfl
    trivial rfl (Success.toOption_eq_some.mp hpeople) (Success.map_eq_error.mp hplan)
  exact ⟨refusal, hcause, (hreports fun _ _ => .ok .unreachable).1 _ rfl,
    fun cause => (hreports fun _ _ => .error cause).2 cause rfl⟩

/-- Where there is no file the bad filter is not reported, though it is where there is one. -/
theorem refusal_hidden :
    countGhosts.execute (Pool.connect ⟨[]⟩ ⟨none, "/work"⟩) staff =
      .error (.opening .sqlite "/work/staff.db" (.driver .sqlite .cannotOpen)) ∧
    countGhosts.execute (Pool.connect ⟨[(["work", "staff.db"], .database Plan.office)]⟩
      ⟨none, "/work"⟩) staff = .error (.search "count" "people"
        (.query (.invalidPath "ghost" "ghost" (.noAttribute "people")))) := by
  have hmissing : (countGhosts.execute (Pool.connect ⟨[]⟩ ⟨none, "/work"⟩) staff).map
      (fun _ => ()) = .error (.opening .sqlite "/work/staff.db" (.driver .sqlite .cannotOpen)) := by
    decide +kernel
  have hthere : (countGhosts.execute (Pool.connect
      ⟨[(["work", "staff.db"], .database Plan.office)]⟩ ⟨none, "/work"⟩) staff).map (fun _ => ()) =
        .error (.search "count" "people"
          (.query (.invalidPath "ghost" "ghost" (.noAttribute "people")))) := by
    decide +kernel
  exact ⟨Success.map_eq_error.mp hmissing, Success.map_eq_error.mp hthere⟩

end Command
end TableSearch
