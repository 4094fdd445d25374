/-
Searches of a service that has a state.

A service answers statements, and an answer may change its state: a database that is written to,
a pool whose connections come and go.  The operations of a repository are the same on any
service, and on the repository's own pool, which no statement changes, they give what the
repository gives.
-/
import TableSearch.Search.Repository

namespace TableSearch

open Sql (Statement)

structure Service (σ : Type) where
  rows : Statement → StateM σ (Except DriverError (List Column × List (List Cell)))
  total : Statement → StateM σ (Except DriverError Nat)

namespace Service

variable {σ α : Type}

def send (backend : Backend) (params : List Value) (answer : StateM σ (Except DriverError α)) :
    ExceptT DataError (StateM σ) α := do
  (Repository.bind params).mapError (DataError.driver backend)
  ExceptT.mk ((Except.mapError (DataError.driver backend)) <$> answer)

variable (service : Service σ) (rp : Repository) (params : SearchParams)

def fetch (s : Statement) : ExceptT DataError (StateM σ) (List Record) := do
  let (columns, rows) ← send rp.backend s.params (service.rows s)
  return rows.map (Record.ofCells columns)

def fetchTotal (s : Statement) : ExceptT DataError (StateM σ) Nat :=
  send rp.backend s.params (service.total s)

def sorted (sort : SortOrder) : ExceptT DataError (StateM σ) (List Record) := do
  let p ← rp.plan params sort
  service.fetch rp (p.select none)

def query : ExceptT DataError (StateM σ) (List Record) :=
  service.sorted rp params .unsorted

def count : ExceptT DataError (StateM σ) Nat := do
  let p ← rp.plan params .unsorted
  service.fetchTotal rp p.count

def page (request : PageRequest) : ExceptT DataError (StateM σ) (Page Record) := do
  let p ← rp.plan params request.sort
  let content ← service.fetch rp (p.select (some (Repository.window request)))
  let total ← match request.knownTotal? content.length with
    | some total => pure total
    | none => service.fetchTotal rp p.count
  return Page.make content request total

/-! ## The service of a pool -/

def ofPool : Service Pool where
  rows s := do
    match ← get with
    | .failing cause => return .error cause
    | .serving m d => return (s.rows m d).mapError .unprepared
  total s := do
    match ← get with
    | .failing cause => return .error cause
    | .serving m d => return (s.total m d).mapError .unprepared

variable {rp params}

/-! A computation that leaves the state as it is, and another one after it. -/

theorem bind_error {β : Type} {x : ExceptT DataError (StateM σ) α}
    {k : α → ExceptT DataError (StateM σ) β} {s : σ} {e : DataError} (h : x s = (.error e, s)) :
    (x >>= k) s = (.error e, s) := by
  show ExceptT.bindCont k (x s).1 (x s).2 = _
  rw [h]
  rfl

theorem bind_ok {β : Type} {x : ExceptT DataError (StateM σ) α}
    {k : α → ExceptT DataError (StateM σ) β} {s : σ} {a : α} (h : x s = (.ok a, s)) :
    (x >>= k) s = k a s := by
  show ExceptT.bindCont k (x s).1 (x s).2 = _
  rw [h]
  rfl

/-- Where the parts leave the state as it is, the whole does, and its result is that of the
parts without a state. -/
theorem bind_eq {β : Type} {x : ExceptT DataError (StateM σ) α}
    {k : α → ExceptT DataError (StateM σ) β} {s : σ} {r : Except DataError α}
    {l : α → Except DataError β} (hx : x s = (r, s)) (hk : ∀ a, k a s = (l a, s)) :
    (x >>= k) s = (r >>= l, s) := by
  cases r with
  | error e => exact bind_error hx
  | ok a => exact (bind_ok hx).trans (hk a)

theorem send_ofPool {backend : Backend} {params : List Value} {pool : Pool}
    {answer : StateM Pool (Except DriverError α)} {r : Except DriverError α}
    (h : answer pool = (r, pool)) :
    send backend params answer pool =
      ((Repository.bind params >>= fun _ => r).mapError (DataError.driver backend), pool) := by
  unfold send
  cases Repository.bind params with
  | error e => rfl
  | ok u =>
    show (fun p : Except DriverError α × Pool => (p.1.mapError (DataError.driver backend), p.2))
      (answer pool) = _
    rw [h]
    rfl

theorem fetch_ofPool (s : Statement) : ofPool.fetch rp s rp.pool = (rp.fetch s, rp.pool) := by
  have hrows : ofPool.rows s rp.pool = (match rp.pool with
      | .failing cause => .error cause
      | .serving m d => (s.rows m d).mapError .unprepared, rp.pool) := by
    cases rp.pool with
    | failing cause => rfl
    | serving m d => rfl
  exact bind_eq (send_ofPool hrows) fun _ => rfl

theorem fetchTotal_ofPool (s : Statement) :
    ofPool.fetchTotal rp s rp.pool = (rp.fetchTotal s, rp.pool) := by
  have htotal : ofPool.total s rp.pool = (match rp.pool with
      | .failing cause => .error cause
      | .serving m d => (s.total m d).mapError .unprepared, rp.pool) := by
    cases rp.pool with
    | failing cause => rfl
    | serving m d => rfl
  exact send_ofPool htotal

theorem sorted_ofPool (sort : SortOrder) :
    ofPool.sorted rp params sort rp.pool = (rp.sorted params sort, rp.pool) :=
  bind_eq rfl fun p => fetch_ofPool (p.select none)

theorem query_ofPool : ofPool.query rp params rp.pool = (rp.query params, rp.pool) :=
  sorted_ofPool .unsorted

theorem count_ofPool : ofPool.count rp params rp.pool = (rp.count params, rp.pool) :=
  bind_eq rfl fun p => fetchTotal_ofPool p.count

theorem page_ofPool (request : PageRequest) :
    ofPool.page rp params request rp.pool = (rp.page params request, rp.pool) := by
  refine bind_eq rfl fun p => bind_eq (fetch_ofPool _) fun content => ?_
  cases request.knownTotal? content.length with
  | some total => rfl
  | none => exact bind_eq (fetchTotal_ofPool p.count) fun _ => rfl

end Service
end TableSearch
