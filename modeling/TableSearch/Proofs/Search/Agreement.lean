/-
The operations of a repository agree.

Counting and listing test the same tuples.  A sort order adds joins after those of the
filters; where they lead to one row each, they give every tuple one successor, and the
condition of the filters does not see what was added: `matching_select_more`.  A page is
cut out of the sorted rows, so a page that is not full tells how many there are, and the
total does not depend on whether the rows were counted: `operations_agree`.
-/
import TableSearch.Proofs.Search.Compilation

namespace TableSearch

open Sql (Statement)

namespace Sql

variable {m : Meaning} {d : Database} {e : Entity} {r : Registry} {root : Table}
  {joined joined' : List Table}

/-! ## More joins -/

namespace Draft

/-- A grown draft has the steps of the draft before and more. -/
theorem Finds.append {D D' : Draft} (hgrown : D.joins <+: D'.joins) (h : D.Finds d joined)
    (h' : D'.Finds d joined') : ∃ more, joined' = joined ++ more ∧
      ∃ extra, D'.steps joined' = D.steps joined ++ extra := by
  obtain ⟨rest, hrest⟩ := hgrown
  rw [Finds, ← hrest, List.map_append, List.append_eq_map_iff] at h'
  obtain ⟨before, more, hjoined, hbefore, _⟩ := h'
  have hsame : before = joined :=
    List.map_injective_iff.mpr (fun _ _ he => Option.some.inj he) (hbefore.trans h)
  rw [hsame] at hjoined
  refine ⟨more, hjoined, (rest.map Prod.snd).zip more, ?_⟩
  rw [steps, steps, ← hrest, hjoined, List.map_append]
  exact List.zip_append (by rw [List.length_map, h.length_eq])

/-- The joins that later paths add are those of their own relations. -/
theorem toOne_of_later {ps qs : List AttributePath} {vs ws : List Value}
    (hres : Resolved r e (ps ++ qs)) (hroot : d.table? e.table = some root)
    (h : (empty.after ps vs).Finds d joined)
    (h' : (empty.after (ps ++ qs) ws).Finds d joined')
    (hone : ∀ path ∈ qs, path.toOne m d e = true) {extra : List (JoinClause × Table)}
    (hextra : (empty.after (ps ++ qs) ws).steps joined' =
      (empty.after ps vs).steps joined ++ extra) :
    ∀ step ∈ extra, step.1.ToOne m (root :: joined') step.2 := by
  intro step hmem
  obtain ⟨i, hi⟩ := List.getElem?_of_mem hmem
  have hlen := length_steps h
  have hstep : ((empty.after (ps ++ qs) ws).steps joined')[(empty.after ps vs).joins.length + i]? =
      some step := by
    rw [hextra, ← hlen, List.getElem?_append_right (Nat.le_add_right _ _),
      Nat.add_sub_cancel_left, hi]
  obtain ⟨j, ⟨_, path, hpath, hj⟩, hdecl, hclause, htable⟩ := (hres.sound ws).step h' hstep
  rw [hclause]
  rcases List.mem_append.mp hpath with hearlier | hlater
  · -- A relation of an earlier path has its number already, which is too small.
    exfalso
    have hknown := knows_after hearlier hj empty vs
    have hgrown : (empty.after ps vs).joins <+: (empty.after (ps ++ qs) ws).joins :=
      prefix_after_append empty ps qs vs ws
    have hnumber := hdecl.number
    rw [tableOf_stable hgrown hknown] at hnumber
    have hle := tableOf_le (empty.after ps vs) (some j.path)
    omega
  · exact toOne_of_resolved hres h' hroot hpath (hone path hlater) j hj step.2 htable

end Draft

namespace Statement

variable {p : Predicate} {terms : List ResolvedTerm} {w : Option Window} {table : String}

/-- The condition of a statement does not see what an order adds to a tuple. -/
theorem passes_select_along (hres : Draft.Resolved r e (p.paths ++ terms.map ResolvedTerm.path))
    (tables more : List Table) {tuple : Tuple} (extra : List (JoinClause × Table))
    (hjoins : (Draft.empty.after p.paths p.values).joins.length < tuple.length)
    (hlen : tuple.length ≤ tables.length) :
    Condition.passes m (select table p terms w).params (tables ++ more)
        (tuple.along m (tables ++ more) extra) (select table p terms w).condition =
      Condition.passes m (select table p [] none).params tables tuple
        (select table p [] none).condition := by
  have hc := fun path hpath => hres.chained path (List.mem_append_left _ hpath)
  rw [passes_select hc, passes_select hc, draft_unsorted]
  refine congrArg (· == Truth.yes) (p.truth_congr fun path hpath => ?_)
  have hknown := Draft.knows_owner_after hpath (hc path hpath) Draft.empty p.values
  have hnumber := Draft.tableOf_stable (prefix_draft p terms w) hknown
  have hle := Draft.tableOf_le (Draft.empty.after p.paths p.values) path.owner
  rw [Draft.ref, hnumber]
  exact ColumnRef.operand_append more (tuple.prefix_along extra)
    (Nat.lt_of_le_of_lt hle hjoins) hlen

/-- An order over relations to one row each does not change how many tuples match. -/
theorem length_matching_select (hres : Draft.Resolved r e (p.paths ++ terms.map ResolvedTerm.path))
    (hroot : d.table? e.table = some root)
    (h : (select table p [] none).tables m d = .ok (root, joined))
    (h' : (select table p terms w).tables m d = .ok (root, joined'))
    (hone : ∀ t ∈ terms, t.path.toOne m d e = true) :
    ((select table p terms w).matching m root joined').length =
      ((select table p [] none).matching m root joined).length := by
  have hfinds := finds_select h
  have hfinds' := finds_select h'
  rw [draft_unsorted] at hfinds
  obtain ⟨more, rfl, extra, hextra⟩ := hfinds.append (prefix_draft p terms w) hfinds'
  have hpaths : ∀ path ∈ terms.map ResolvedTerm.path, path.toOne m d e = true := by
    intro path hpath
    obtain ⟨t, ht, rfl⟩ := List.mem_map.mp hpath
    exact hone t ht
  have hone_extra : ∀ step ∈ extra, step.1.ToOne m ((root :: joined) ++ more) step.2 :=
    Draft.toOne_of_later hres hroot hfinds hfinds' hpaths hextra
  have hlen : ((Draft.empty.after p.paths p.values).steps joined).length = joined.length := by
    rw [Draft.length_steps hfinds, hfinds.length_eq]
  have haligned : Aligned ((root :: joined) ++ more) 1 ((draft p terms w).steps (joined ++ more)) :=
    Draft.steps_aligned root
  rw [hextra] at haligned
  have hrows : Fitting ((root :: joined) ++ more) 1 (root.rows.map fun row => [some row]) :=
    Draft.rows_fitting root (joined ++ more)
  have hproduct : (select table p terms w).product m root (joined ++ more) =
      ((select table p [] none).product m root joined).map fun tuple =>
        tuple.along m ((root :: joined) ++ more) extra := by
    rw [product_select, product_select, draft_unsorted, hextra]
    refine foldl_joinStep_more more hrows haligned ?_ hone_extra
    rw [hlen, List.length_cons, Nat.add_comm]
    exact Nat.le_succ _
  have hfitting : Fitting (root :: joined) (1 + joined.length)
      ((select table p [] none).product m root joined) := by
    rw [product_select, draft_unsorted, ← hlen]
    exact (Draft.rows_fitting root joined).foldl_joinStep (Draft.steps_aligned root)
  rw [matching, matching, hproduct, List.filter_map, List.length_map]
  refine congrArg List.length (List.filter_congr fun tuple htuple => ?_)
  have htuple := (hfitting tuple htuple).1
  refine passes_select_along hres (root :: joined) more extra ?_ ?_
  · rw [htuple, ← hfinds.length_eq, Nat.add_comm]
    exact Nat.lt_succ_self _
  · rw [htuple]
    exact Nat.le_of_eq (Nat.add_comm 1 joined.length)

/-! ## Windows -/

/-- A window does not change which tuples match, nor their order. -/
theorem ordered_select (hc : ∀ path ∈ p.paths, AttributePath.Chained none path.joins path.owner) :
    (select table p terms w).ordered m root joined =
      (select table p terms none).ordered m root joined := by
  have hproduct : (select table p terms w).product m root joined =
      (select table p terms none).product m root joined := by
    rw [product_select, product_select]
    rfl
  have hmatching : (select table p terms w).matching m root joined =
      (select table p terms none).matching m root joined := by
    rw [matching, matching, hproduct]
    refine List.filter_congr fun tuple _ => ?_
    rw [passes_select hc, passes_select hc]
    rfl
  rw [ordered, hmatching]
  rfl

theorem number_at {before params : List Value} {n : Nat} (hn : n < 2 ^ 63)
    (h : before ++ [.int (Int64.ofNat n)] <+: params) :
    WindowParams.number params (before.length + 1) = n := by
  rw [WindowParams.number, argument_at h]
  show (Int64.ofNat n).toInt.toNat = n
  rw [Int64.toInt_ofNat_of_lt hn, Int.toNat_natCast]

/-- A statement's window cuts what its parameters say. -/
theorem cut_select {α : Type} (items : List α) (w : Window) :
    WindowParams.cut (select table p terms (some w)).params items
        (select table p terms (some w)).window =
      (items.drop (min w.offset.toNat (2 ^ 63 - 1))).take w.limit.toNat := by
  have hlimit_lt : w.limit.toNat < 2 ^ 63 := Nat.lt_trans w.limit.toNat_lt (by decide)
  have hoffset_lt : min w.offset.toNat (2 ^ 63 - 1) < 2 ^ 63 := by omega
  have hlimit : WindowParams.number (p.values ++ Draft.windowValues (some w))
      (p.values.length + 1) = w.limit.toNat :=
    number_at hlimit_lt ⟨[_], List.append_assoc _ _ _⟩
  have hoffset : WindowParams.number (p.values ++ Draft.windowValues (some w))
      ((p.values ++ [Value.int (Int64.ofNat w.limit.toNat)]).length + 1) =
        min w.offset.toNat (2 ^ 63 - 1) :=
    number_at hoffset_lt ⟨[], by simp [Draft.windowValues]⟩
  have hwindow : (select table p terms (some w)).window =
      some { limit := ((Draft.empty.optionalCondition p).2.sortKeys terms).2.params.length + 1,
             offset := (((Draft.empty.optionalCondition p).2.sortKeys terms).2.params ++
               [Value.int (Int64.ofNat w.limit.toNat)]).length + 1 } := rfl
  rw [hwindow, params_before_window, select_params, WindowParams.cut, hlimit, hoffset]

end Statement
end Sql

namespace Plan

variable {r : Registry} {name : String} {params : SearchParams} {sort sort' : SortOrder}
  {plan plan' : Plan}

/-- Plans of one search differ in their order alone. -/
theorem same_of_make (h : Plan.make r name params sort = .ok plan)
    (h' : Plan.make r name params sort' = .ok plan') :
    plan'.entity = plan.entity ∧ plan'.predicate = plan.predicate := by
  obtain ⟨hroot, hpredicate, _⟩ := make_eq_ok h
  obtain ⟨hroot', hpredicate', _⟩ := make_eq_ok h'
  rw [hroot] at hroot'
  have hentity : plan'.entity = plan.entity := (Except.ok.inj hroot').symm
  rw [hentity, hpredicate] at hpredicate'
  exact ⟨hentity, (Except.ok.inj hpredicate').symm⟩

theorem count_of_make (h : Plan.make r name params sort = .ok plan)
    (h' : Plan.make r name params sort' = .ok plan') : plan.count = plan'.count := by
  obtain ⟨hentity, hpredicate⟩ := same_of_make h h'
  rw [count, count, hentity, hpredicate]

end Plan

namespace PageRequest

/-- A page that tells the number of all rows tells it right. -/
theorem eq_of_knownTotal? {α : Type} (request : PageRequest) {rows : List α} {total : Nat}
    (h : request.knownTotal? ((rows.drop request.offset).take request.limit.toNat).length =
      some total) : total = rows.length := by
  rw [List.length_take, List.length_drop, knownTotal?] at h
  split at h
  · split at h
    · cases h
      omega
    · cases h
  · split at h
    · cases h
      omega
    · cases h

end PageRequest

namespace Repository

variable {rp : Repository} {m : Meaning} {d : Database} {s : Statement} {params : SearchParams}
  {sort : SortOrder}

/-! ## Operations -/

theorem fetch_eq_ok (hpool : rp.pool = .serving m d) {records : List Record}
    (h : rp.fetch s = .ok records) : ∃ root joined, s.tables m d = .ok (root, joined) ∧
      records = (Sql.WindowParams.cut s.params
        ((s.ordered m root joined).map Statement.rootCells) s.window).map
          (Record.ofCells root.columns) := by
  obtain ⟨⟨columns, rows⟩, hrun, h⟩ := Success.bind_eq_ok.mp h
  cases h
  rw [Success.mapError_eq_ok, hpool] at hrun
  obtain ⟨root, joined, htables, hanswer⟩ :=
    Statement.rows_eq_ok (run_serving_eq_ok.mp hrun).2
  cases hanswer
  exact ⟨root, joined, htables, rfl⟩

theorem fetchTotal_eq_ok (hpool : rp.pool = .serving m d) {n : Nat}
    (h : rp.fetchTotal s = .ok n) : ∃ root joined, s.tables m d = .ok (root, joined) ∧
      n = (s.matching m root joined).length := by
  rw [fetchTotal, Success.mapError_eq_ok, hpool] at h
  obtain ⟨⟨root, joined⟩, htables, h⟩ := Success.bind_eq_ok.mp (run_serving_eq_ok.mp h).2
  obtain ⟨_, _, h⟩ := Success.bind_eq_ok.mp h
  cases h
  exact ⟨root, joined, htables, rfl⟩

theorem sorted_eq_ok {rows : List Record} (h : rp.sorted params sort = .ok rows) :
    ∃ plan, Plan.make rp.registry rp.entity params sort = .ok plan ∧
      rp.fetch (plan.select none) = .ok rows := by
  obtain ⟨plan, hplan, h⟩ := Success.bind_eq_ok.mp h
  exact ⟨plan, Success.mapError_eq_ok.mp hplan, h⟩

theorem count_eq_ok {n : Nat} (h : rp.count params = .ok n) :
    ∃ plan, Plan.make rp.registry rp.entity params .unsorted = .ok plan ∧
      rp.fetchTotal plan.count = .ok n := by
  obtain ⟨plan, hplan, h⟩ := Success.bind_eq_ok.mp h
  exact ⟨plan, Success.mapError_eq_ok.mp hplan, h⟩

/-- A page holds what its statement fetched.  Its total is what the page tells, or else the
count. -/
theorem page_eq_ok {request : PageRequest} {page : Page Record}
    (h : rp.page params request = .ok page) :
    ∃ plan, Plan.make rp.registry rp.entity params request.sort = .ok plan ∧
      rp.fetch (plan.select (some (window request))) = .ok page.content ∧
        (request.knownTotal? page.content.length = some page.total ∨
          rp.fetchTotal plan.count = .ok page.total) := by
  obtain ⟨plan, hplan, h⟩ := Success.bind_eq_ok.mp h
  obtain ⟨content, hcontent, h⟩ := Success.bind_eq_ok.mp h
  refine ⟨plan, Success.mapError_eq_ok.mp hplan, ?_⟩
  cases htotal : request.knownTotal? content.length with
  | some total =>
    rw [htotal] at h
    cases h
    exact ⟨hcontent, .inl htotal⟩
  | none =>
    rw [htotal] at h
    obtain ⟨total, hcounted, h⟩ := Success.bind_eq_ok.mp h
    cases h
    exact ⟨hcontent, .inr hcounted⟩

theorem exists_page {request : PageRequest} {plan : Plan} {content : List Record} {n : Nat}
    (hplan : Plan.make rp.registry rp.entity params request.sort = .ok plan)
    (hcontent : rp.fetch (plan.select (some (window request))) = .ok content)
    (hcount : rp.fetchTotal plan.count = .ok n) : ∃ page, rp.page params request = .ok page := by
  cases htotal : request.knownTotal? content.length with
  | some total =>
    refine ⟨Page.make content request total, Success.bind_eq_ok.mpr
      ⟨plan, Success.mapError_eq_ok.mpr hplan, Success.bind_eq_ok.mpr ⟨content, hcontent, ?_⟩⟩⟩
    rw [htotal]
    rfl
  | none =>
    refine ⟨Page.make content request n, Success.bind_eq_ok.mpr
      ⟨plan, Success.mapError_eq_ok.mpr hplan, Success.bind_eq_ok.mpr ⟨content, hcontent, ?_⟩⟩⟩
    rw [htotal]
    exact Success.bind_eq_ok.mpr ⟨n, hcount, rfl⟩

/-! ## Agreement -/

/-- Every relation that a sort order follows leads to one row at most. -/
def sortsToOne (rp : Repository) (m : Meaning) (d : Database) (sort : SortOrder) : Bool :=
  match rp.registry.get rp.entity with
  | .ok root =>
      sort.terms.all fun t =>
        match AttributePath.resolve rp.registry root t.property with
        | .ok path => path.toOne m d root
        | .error _ => true
  | .error _ => true

theorem sortsToOne_unsorted (rp : Repository) (m : Meaning) (d : Database) :
    rp.sortsToOne m d .unsorted = true := by
  unfold sortsToOne
  split <;> rfl

/-- The statements of listing and counting find the same tuples, also in an order over
relations to one row each. -/
theorem length_sorted {plan : Plan} (hpool : rp.pool = .serving m d)
    (hplan : Plan.make rp.registry rp.entity params .unsorted = .ok plan)
    {root : Table} {joined : List Table}
    (htables : plan.count.tables m d = .ok (root, joined))
    {rows : List Record} (h : rp.sorted params sort = .ok rows)
    (hone : rp.sortsToOne m d sort = true) :
    rows.length = (plan.count.matching m root joined).length := by
  obtain ⟨plan', hplan', h⟩ := sorted_eq_ok h
  obtain ⟨root', joined', htables', rfl⟩ := fetch_eq_ok hpool h
  rw [← Plan.count_of_make hplan' hplan] at htables ⊢
  obtain ⟨hroot, _, hterms⟩ := Plan.make_eq_ok hplan'
  have hfound : d.table? plan'.entity.table = some root := (Statement.tables_eq_ok.mp htables).2.1
  have hfound' : d.table? plan'.entity.table = some root' :=
    (Statement.tables_eq_ok.mp htables').2.1
  obtain rfl : root' = root := Option.some.inj (hfound'.symm.trans hfound)
  have hterms_one : ∀ t ∈ plan'.terms, t.path.toOne m d plan'.entity = true := by
    intro t ht
    obtain ⟨term, hterm, hresolved⟩ := Success.exists_of_mem_right hterms ht
    obtain ⟨path, hpath, hresolved⟩ := Success.bind_eq_ok.mp hresolved
    cases hresolved
    rw [sortsToOne, hroot] at hone
    have hone := List.all_eq_true.mp hone term hterm
    rw [hpath] at hone
    exact hone
  have hlength := Statement.length_matching_select (Plan.resolved_of_make hplan') hfound htables
    htables' hterms_one
  rw [List.length_map]
  show (((plan'.select none).ordered m root' joined').map Statement.rootCells).length = _
  rw [List.length_map, Statement.ordered, List.length_mergeSort]
  exact hlength

/-- The offset of a page is small enough to be sent as it is. -/
theorem offset_window (request : PageRequest) :
    min (window request).offset.toNat (2 ^ 63 - 1) = request.offset := by
  have hlt := request.offset_lt
  have hsame : (window request).offset.toNat = request.offset :=
    UInt64.toNat_ofNat_of_lt (Nat.lt_trans hlt (by decide))
  omega

theorem content_page (hpool : rp.pool = .serving m d) {request : PageRequest}
    {sorted : List Record} {page : Page Record}
    (hsorted : rp.sorted params request.sort = .ok sorted)
    (hpage : rp.page params request = .ok page) :
    page.content = (sorted.drop request.offset).take request.limit.toNat := by
  obtain ⟨plan, hplan, hsorted⟩ := sorted_eq_ok hsorted
  obtain ⟨plan', hplan', hcontent, _⟩ := page_eq_ok hpage
  obtain rfl : plan' = plan := Except.ok.inj (hplan'.symm.trans hplan)
  obtain ⟨root, joined, htables, rfl⟩ := fetch_eq_ok hpool hsorted
  obtain ⟨root', joined', htables', hcontent⟩ := fetch_eq_ok hpool hcontent
  obtain ⟨_, hfound, hjoined, _⟩ := Statement.tables_eq_ok.mp htables
  obtain ⟨_, hfound', hjoined', _⟩ := Statement.tables_eq_ok.mp htables'
  obtain rfl : root' = root := Option.some.inj (hfound'.symm.trans hfound)
  obtain rfl : joined' = joined := by
    rw [Plan.select, Statement.select_joins] at hjoined hjoined'
    exact List.map_injective_iff.mpr (fun _ _ he => Option.some.inj he)
      (hjoined'.symm.trans hjoined)
  have hchained := fun path hpath =>
    (Plan.resolved_of_make hplan).chained path (List.mem_append_left _ hpath)
  rw [hcontent, Plan.select, Statement.cut_select, offset_window, Statement.ordered_select hchained,
    List.map_take, List.map_drop]
  rfl

/-- The operations of a repository agree.  The count is the number of rows of a query.  A
sort order over relations to one row each has that many rows too.  A page is cut out of
the sorted rows, and where its order is one of that kind its total is the count; no order
is of that kind, by `sortsToOne_unsorted`. -/
theorem operations_agree (hpool : rp.pool = .serving m d) {n : Nat} {rows : List Record}
    (hcount : rp.count params = .ok n) (hquery : rp.query params = .ok rows) :
    n = rows.length ∧
    (∀ sort sorted, rp.sorted params sort = .ok sorted → rp.sortsToOne m d sort = true →
      sorted.length = rows.length) ∧
    (∀ request sorted page, rp.sorted params request.sort = .ok sorted →
      rp.page params request = .ok page →
        page.content = (sorted.drop request.offset).take request.limit.toNat ∧
        (rp.sortsToOne m d request.sort = true → page.total = n)) := by
  obtain ⟨plan, hplan, htotal⟩ := count_eq_ok hcount
  obtain ⟨root, joined, htables, hn⟩ := fetchTotal_eq_ok hpool htotal
  have hlength : ∀ sort sorted, rp.sorted params sort = .ok sorted → rp.sortsToOne m d sort = true →
      sorted.length = n := by
    intro sort sorted hsorted hone
    rw [length_sorted hpool hplan htables hsorted hone, hn]
  have hrows : rows.length = n :=
    hlength .unsorted rows hquery (rp.sortsToOne_unsorted m d)
  refine ⟨hrows.symm, ?_, ?_⟩
  · intro sort sorted hsorted hone
    rw [hlength sort sorted hsorted hone, hrows]
  · intro request sorted page hsorted hpage
    have hcontent := content_page hpool hsorted hpage
    refine ⟨hcontent, fun hone => ?_⟩
    obtain ⟨plan', hplan', _, hknown | hcounted⟩ := page_eq_ok hpage
    · rw [hcontent] at hknown
      rw [request.eq_of_knownTotal? hknown, hlength request.sort sorted hsorted hone]
    · rw [Plan.count_of_make hplan' hplan, htotal] at hcounted
      exact (Except.ok.inj hcounted).symm

def staff : Repository where
  backend := .sqlite
  pool := .serving Meaning.sqlite Plan.office
  registry := Plan.people
  entity := "people"

def secondPage : PageRequest where
  page := 2
  limit := 2
  sort := .ofTerm { property := "manager.name" }
  page_pos := by decide
  limit_pos := by decide
  limit_le := by decide

theorem operations_agree_staff : ∃ rows sorted page, staff.count Keyed.empty = .ok 3 ∧
    staff.query Keyed.empty = .ok rows ∧ staff.sorted Keyed.empty secondPage.sort = .ok sorted ∧
    staff.page Keyed.empty secondPage = .ok page ∧ rows.length = 3 ∧ sorted.length = 3 ∧
    page.content = (sorted.drop 2).take 2 ∧ page.total = 3 := by
  have hpool : staff.pool = .serving Meaning.sqlite Plan.office := rfl
  have hcount : staff.count Keyed.empty = .ok 3 := by
    refine Success.toOption_eq_some.mp ?_
    decide +kernel
  have hone : staff.sortsToOne Meaning.sqlite Plan.office secondPage.sort = true := by
    decide +kernel
  have hgiven : (staff.query Keyed.empty).toOption.isSome = true ∧
      (staff.sorted Keyed.empty secondPage.sort).toOption.isSome = true ∧
      ((Plan.make Plan.people "people" Keyed.empty secondPage.sort).toOption.all fun plan =>
        (staff.fetch (plan.select (some (window secondPage)))).toOption.isSome &&
          (staff.fetchTotal plan.count).toOption.isSome) = true := by
    decide +kernel
  obtain ⟨hquery, hsorted, hpage⟩ := hgiven
  obtain ⟨rows, hquery⟩ := Option.isSome_iff_exists.mp hquery
  obtain ⟨sorted, hsorted⟩ := Option.isSome_iff_exists.mp hsorted
  rw [Success.toOption_eq_some] at hquery hsorted
  obtain ⟨plan, hplan, _⟩ := sorted_eq_ok hsorted
  have hplan' : Plan.make Plan.people "people" Keyed.empty secondPage.sort = .ok plan := hplan
  rw [hplan'] at hpage
  obtain ⟨hcontent, htotal⟩ := Bool.and_eq_true_iff.mp hpage
  obtain ⟨content, hcontent⟩ := Option.isSome_iff_exists.mp hcontent
  obtain ⟨total, htotal⟩ := Option.isSome_iff_exists.mp htotal
  rw [Success.toOption_eq_some] at hcontent htotal
  obtain ⟨page, hpage⟩ := exists_page hplan hcontent htotal
  obtain ⟨hrows, hlength, hcut⟩ := operations_agree hpool hcount hquery
  obtain ⟨hcut, htotal⟩ := hcut secondPage sorted page hsorted hpage
  refine ⟨rows, sorted, page, hcount, hquery, hsorted, hpage, hrows.symm, ?_, hcut, htotal hone⟩
  rw [hlength secondPage.sort sorted hsorted hone, hrows]

end Repository
end TableSearch
