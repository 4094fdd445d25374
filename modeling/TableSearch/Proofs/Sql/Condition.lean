/-
What the condition of a predicate means.

A predicate is true or false of a way to read its paths.  Its drafted condition says the
same when tables and parameters are looked up by number, in every statement whose draft
grew out of the one that the condition left: `holds_condition`.
-/
import TableSearch.Database.Execution
import TableSearch.Proofs.Sql.Draft

namespace TableSearch

namespace Predicate

mutual

/-- The truth of a predicate, when `read` gives what stands at a path. -/
def truth (m : Meaning) (read : AttributePath → Operand) : Predicate → Truth
  | .and parts => truthOf m read parts
  | .compare path op value => m.compare op (read path) value
  | .like path pattern escape =>
      m.like (path.type != .text) escape (read path).cell (.text pattern)
  | .isNull path => .ofBool (read path).cell.isNull
  | .isNotNull path => .ofBool (!(read path).cell.isNull)
  | .isIn path values => Truth.any (values.map fun v => m.compare .eq (read path) v)

def truthOf (m : Meaning) (read : AttributePath → Operand) : List Predicate → Truth
  | [] => .yes
  | p :: rest => (p.truth m read).and (truthOf m read rest)

end

mutual

/-- The paths whose columns a predicate's condition names, depth first.  A test against no
values names none. -/
def columnPaths : Predicate → List AttributePath
  | .and parts => columnPathsOf parts
  | .compare path _ _ => [path]
  | .like path _ _ => [path]
  | .isNull path => [path]
  | .isNotNull path => [path]
  | .isIn path items => if items.isEmpty then [] else [path]

def columnPathsOf : List Predicate → List AttributePath
  | [] => []
  | p :: rest => p.columnPaths ++ columnPathsOf rest

end

mutual

theorem columnPaths_subset (p : Predicate) : p.columnPaths ⊆ p.paths := by
  cases p with
  | and parts => exact columnPathsOf_subset parts
  | compare path op value => exact List.Subset.refl _
  | like path pattern escape => exact List.Subset.refl _
  | isNull path => exact List.Subset.refl _
  | isNotNull path => exact List.Subset.refl _
  | isIn path items =>
    cases items with
    | nil => exact List.nil_subset _
    | cons v rest => exact List.Subset.refl _

theorem columnPathsOf_subset (ps : List Predicate) : columnPathsOf ps ⊆ pathsOf ps := by
  cases ps with
  | nil => exact List.Subset.refl _
  | cons p rest =>
    exact List.append_subset.mpr
      ⟨List.subset_append_of_subset_left _ (columnPaths_subset p),
        List.subset_append_of_subset_right _ (columnPathsOf_subset rest)⟩

end

mutual

theorem truth_congr {m : Meaning} {read read' : AttributePath → Operand} (p : Predicate)
    (h : ∀ path ∈ p.paths, read path = read' path) : p.truth m read = p.truth m read' := by
  cases p with
  | and parts => exact truthOf_congr parts h
  | compare path op value => rw [truth, truth, h path List.mem_cons_self]
  | like path pattern escape => rw [truth, truth, h path List.mem_cons_self]
  | isNull path => rw [truth, truth, h path List.mem_cons_self]
  | isNotNull path => rw [truth, truth, h path List.mem_cons_self]
  | isIn path values => rw [truth, truth, h path List.mem_cons_self]

theorem truthOf_congr {m : Meaning} {read read' : AttributePath → Operand} (ps : List Predicate)
    (h : ∀ path ∈ pathsOf ps, read path = read' path) : truthOf m read ps = truthOf m read' ps := by
  cases ps with
  | nil => rfl
  | cons p rest =>
    rw [truthOf, truthOf, truth_congr p fun path hp => h path (List.mem_append_left _ hp),
      truthOf_congr rest fun path hp => h path (List.mem_append_right _ hp)]

end

theorem truthOf_eq_yes {m : Meaning} {read : AttributePath → Operand} {ps : List Predicate} :
    truthOf m read ps = .yes ↔ ∀ p ∈ ps, p.truth m read = .yes := by
  induction ps with
  | nil => simp [truthOf]
  | cons p rest ih => rw [truthOf, Truth.and_eq_yes, ih, List.forall_mem_cons]

theorem truth_all_eq_yes {m : Meaning} {read : AttributePath → Operand} {ps : List Predicate} :
    (all ps).truth m read = .yes ↔ ∀ p ∈ ps, p.truth m read = .yes := by
  unfold all
  split
  · simp
  · exact truthOf_eq_yes

end Predicate

namespace Sql

open Condition (argument)

/-! ## Parameters by number -/

theorem argument_at {before params : List Value} {v : Value}
    (h : before ++ [v] <+: params) : argument params (before.length + 1) = v := by
  obtain ⟨rest, rfl⟩ := h
  simp [argument, List.getD_eq_getElem?_getD]

theorem map_argument_range' {before values params : List Value}
    (h : before ++ values <+: params) :
    (List.range' (before.length + 1) values.length).map (argument params) = values := by
  induction values generalizing before with
  | nil => rfl
  | cons v rest ih =>
    have hlast : before ++ [v] ++ rest <+: params := by
      rw [List.append_assoc]
      exact h
    have hrest := ih hlast
    rw [List.length_append, List.length_singleton] at hrest
    rw [List.length_cons, List.range'_succ, List.map_cons, hrest,
      argument_at ((List.prefix_append _ _).trans hlast)]

namespace Draft

/-! ## Drafted conditions -/

def ref (d : Draft) (path : AttributePath) : ColumnRef where
  table := d.tableOf path.owner
  column := path.column

theorem column_ref {d D : Draft} {path : AttributePath} {values : List Value}
    (hc : AttributePath.Chained none path.joins path.owner)
    (h : (d.after [path] values).joins <+: D.joins) : (d.column path).1 = D.ref path := by
  have hknown := knows_owner_after (List.mem_singleton_self path) hc d []
  have hstays := tableOf_stable (d := d.after [path] []) h hknown
  show ({ table := (d.column path).2.tableOf path.owner, column := path.column } : ColumnRef) = _
  rw [column_draft, ref, hstays]

mutual

/-- A condition says what its predicate says, in every statement that grew out of its
draft. -/
theorem holds_condition {m : Meaning} {D : Draft} (operand : ColumnRef → Operand) (d : Draft)
    (p : Predicate)
    (hc : ∀ path ∈ p.paths, AttributePath.Chained none path.joins path.owner)
    (hjoins : (d.after p.paths p.values).joins <+: D.joins)
    (hparams : (d.after p.paths p.values).params <+: D.params) :
    (d.condition p).1.holds m D.params operand = p.truth m fun path => operand (D.ref path) := by
  cases p with
  | and parts =>
    cases parts with
    | nil => rfl
    | cons p rest => exact holds_conditions operand d (p :: rest) hc hjoins hparams
  | compare path op value =>
    have href := column_ref (hc path List.mem_cons_self) hjoins
    have hparam : argument D.params ((d.column path).2.params.length + 1) = value := by
      rw [column_params]
      exact argument_at hparams
    show m.compare op (operand (d.column path).1)
      (argument D.params ((d.column path).2.params.length + 1)) = _
    rw [href, hparam]
    rfl
  | like path pattern escape =>
    have href := column_ref (hc path List.mem_cons_self) hjoins
    have hparam : argument D.params ((d.column path).2.params.length + 1) = .text pattern := by
      rw [column_params]
      exact argument_at hparams
    show m.like (path.type != .text) escape (operand (d.column path).1).cell
      (argument D.params ((d.column path).2.params.length + 1)) = _
    rw [href, hparam]
    rfl
  | isNull path =>
    have href := column_ref (hc path List.mem_cons_self) hjoins
    show Truth.ofBool (operand (d.column path).1).cell.isNull = _
    rw [href]
    rfl
  | isNotNull path =>
    have href := column_ref (hc path List.mem_cons_self) hjoins
    show Truth.ofBool (!(operand (d.column path).1).cell.isNull) = _
    rw [href]
    rfl
  | isIn path values =>
    cases values with
    | nil => rfl
    | cons v rest =>
      have href := column_ref (hc path List.mem_cons_self) hjoins
      have hvalues : (List.range' ((d.column path).2.params.length + 1) (v :: rest).length).map
          (argument D.params) = v :: rest := by
        rw [column_params]
        exact map_argument_range' hparams
      show Truth.any ((List.range' ((d.column path).2.params.length + 1) (v :: rest).length).map
        ((m.compare .eq (operand (d.column path).1)) ∘ argument D.params)) = _
      rw [href, ← List.map_map, hvalues]
      rfl

theorem holds_conditions {m : Meaning} {D : Draft} (operand : ColumnRef → Operand) (d : Draft)
    (ps : List Predicate)
    (hc : ∀ path ∈ Predicate.pathsOf ps, AttributePath.Chained none path.joins path.owner)
    (hjoins : (d.after (Predicate.pathsOf ps) (Predicate.valuesOf ps)).joins <+: D.joins)
    (hparams : (d.after (Predicate.pathsOf ps) (Predicate.valuesOf ps)).params <+: D.params) :
    Condition.holdsAll m D.params operand (d.conditions ps).1 =
      Predicate.truthOf m (fun path => operand (D.ref path)) ps := by
  cases ps with
  | nil => rfl
  | cons p rest =>
    have hgrown : d.after (Predicate.pathsOf (p :: rest)) (Predicate.valuesOf (p :: rest)) =
        (d.after p.paths p.values).after (Predicate.pathsOf rest) (Predicate.valuesOf rest) :=
      (after_after d _ _ _ _).symm
    rw [hgrown] at hjoins hparams
    have hfirst := holds_condition (m := m) operand d p
      (fun path hp => hc path (List.mem_append_left _ hp))
      ((prefix_after _ _ _).trans hjoins) ((List.prefix_append _ _).trans hparams)
    have hrest := holds_conditions (m := m) operand (d.after p.paths p.values) rest
      (fun path hp => hc path (List.mem_append_right _ hp)) hjoins hparams
    show ((d.condition p).1.holds m D.params operand).and
      (Condition.holdsAll m D.params operand ((d.condition p).2.conditions rest).1) = _
    rw [condition_draft, hfirst, hrest]
    rfl

end

mutual

/-- A condition names the columns of its predicate, as every draft that grew out of its own
has them. -/
theorem refs_condition {D : Draft} (d : Draft) (p : Predicate)
    (hc : ∀ path ∈ p.paths, AttributePath.Chained none path.joins path.owner)
    (hjoins : (d.after p.paths p.values).joins <+: D.joins) :
    (d.condition p).1.refs = p.columnPaths.map D.ref := by
  cases p with
  | and parts =>
    cases parts with
    | nil => rfl
    | cons p rest => exact refs_conditions d (p :: rest) hc hjoins
  | compare path op value =>
    exact congrArg (fun r => [r]) (column_ref (hc path List.mem_cons_self) hjoins)
  | like path pattern escape =>
    exact congrArg (fun r => [r]) (column_ref (hc path List.mem_cons_self) hjoins)
  | isNull path =>
    exact congrArg (fun r => [r]) (column_ref (hc path List.mem_cons_self) hjoins)
  | isNotNull path =>
    exact congrArg (fun r => [r]) (column_ref (hc path List.mem_cons_self) hjoins)
  | isIn path values =>
    cases values with
    | nil => rfl
    | cons v rest =>
      exact congrArg (fun r => [r]) (column_ref (hc path List.mem_cons_self) hjoins)

theorem refs_conditions {D : Draft} (d : Draft) (ps : List Predicate)
    (hc : ∀ path ∈ Predicate.pathsOf ps, AttributePath.Chained none path.joins path.owner)
    (hjoins : (d.after (Predicate.pathsOf ps) (Predicate.valuesOf ps)).joins <+: D.joins) :
    Condition.refsOf (d.conditions ps).1 = (Predicate.columnPathsOf ps).map D.ref := by
  cases ps with
  | nil => rfl
  | cons p rest =>
    have hgrown : d.after (Predicate.pathsOf (p :: rest)) (Predicate.valuesOf (p :: rest)) =
        (d.after p.paths p.values).after (Predicate.pathsOf rest) (Predicate.valuesOf rest) :=
      (after_after d _ _ _ _).symm
    rw [hgrown] at hjoins
    have hfirst := refs_condition d p (fun path hp => hc path (List.mem_append_left _ hp))
      ((prefix_after _ _ _).trans hjoins)
    have hrest := refs_conditions (d.after p.paths p.values) rest
      (fun path hp => hc path (List.mem_append_right _ hp)) hjoins
    show (d.condition p).1.refs ++ Condition.refsOf ((d.condition p).2.conditions rest).1 = _
    rw [condition_draft, hfirst, hrest, ← List.map_append]
    rfl

end

theorem refs_optionalCondition {D : Draft} (d : Draft) {p : Predicate}
    (hc : ∀ path ∈ p.paths, AttributePath.Chained none path.joins path.owner)
    (hjoins : (d.after p.paths p.values).joins <+: D.joins) {c : Condition}
    (h : (d.optionalCondition p).1 = some c) : ∀ r ∈ c.refs, ∃ path ∈ p.paths, r = D.ref path := by
  unfold optionalCondition at h
  by_cases hall : p.matchesAll = true
  · rw [if_pos hall] at h
    cases h
  · rw [if_neg hall] at h
    cases h
    intro r hr
    rw [refs_condition d p hc hjoins] at hr
    obtain ⟨path, hpath, rfl⟩ := List.mem_map.mp hr
    exact ⟨path, p.columnPaths_subset hpath, rfl⟩

/-- A tuple passes when the predicate is true of it; no condition is the predicate that is
always true. -/
theorem passes_optionalCondition {m : Meaning} {tables : List Table} {tuple : Tuple}
    {D : Draft} (d : Draft) (p : Predicate)
    (hc : ∀ path ∈ p.paths, AttributePath.Chained none path.joins path.owner)
    (hjoins : (d.after p.paths p.values).joins <+: D.joins)
    (hparams : (d.after p.paths p.values).params <+: D.params) :
    Condition.passes m D.params tables tuple (d.optionalCondition p).1 =
      ((p.truth m fun path => (D.ref path).operand tables tuple) == .yes) := by
  unfold optionalCondition
  by_cases h : p.matchesAll = true
  · rw [if_pos h, Predicate.matchesAll_iff.mp h]
    rfl
  · rw [if_neg h]
    show ((d.condition p).1.holds m D.params (ColumnRef.operand tables tuple) == .yes) = _
    rw [holds_condition _ d p hc hjoins hparams]

end Draft
end Sql
end TableSearch
