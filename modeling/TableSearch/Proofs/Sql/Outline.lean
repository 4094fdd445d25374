/-
What of a predicate the text of its statement shows.

The outline of a predicate keeps its paths, its operators and the lengths of its lists, and has
nulls for its values.  A statement names its parameters by their places, so drafts that have
used as many parameters go on alike, and the text of a statement is the text for the outline:
`sql_select_outline` and `sql_count_outline`.
-/
import TableSearch.Proofs.Sql.Draft
import TableSearch.Sql.Printer

namespace TableSearch

namespace Predicate

mutual

def outline : Predicate → Predicate
  | .and parts => .and (outlines parts)
  | .compare path op _ => .compare path op .null
  | .like path _ escape => .like path "" escape
  | .isNull path => .isNull path
  | .isNotNull path => .isNotNull path
  | .isIn path items => .isIn path (List.replicate items.length .null)

def outlines : List Predicate → List Predicate
  | [] => []
  | p :: rest => p.outline :: outlines rest

end

theorem outlines_eq_map (ps : List Predicate) : outlines ps = ps.map outline := by
  induction ps with
  | nil => rfl
  | cons p rest ih => rw [outlines, ih, List.map_cons]

theorem outline_all (ps : List Predicate) : (all ps).outline = all (ps.map outline) := by
  cases ps with
  | nil => rfl
  | cons p rest =>
    cases rest with
    | nil => rfl
    | cons q rest => exact congrArg Predicate.and (outlines_eq_map (p :: q :: rest))

theorem matchesAll_outline (p : Predicate) : p.outline.matchesAll = p.matchesAll := by
  cases p with
  | and parts => cases parts <;> rfl
  | _ => rfl

mutual

theorem paths_outline (p : Predicate) : p.outline.paths = p.paths := by
  cases p with
  | and parts => exact pathsOf_outlines parts
  | _ => rfl

theorem pathsOf_outlines (ps : List Predicate) : pathsOf (outlines ps) = pathsOf ps := by
  cases ps with
  | nil => rfl
  | cons p rest => rw [outlines, pathsOf, pathsOf, paths_outline, pathsOf_outlines]

end

mutual

theorem length_values_outline (p : Predicate) : p.outline.values.length = p.values.length := by
  cases p with
  | and parts => exact length_valuesOf_outlines parts
  | isIn path items => exact List.length_replicate
  | _ => rfl

theorem length_valuesOf_outlines (ps : List Predicate) :
    (valuesOf (outlines ps)).length = (valuesOf ps).length := by
  cases ps with
  | nil => rfl
  | cons p rest =>
    rw [outlines, valuesOf, valuesOf, List.length_append, List.length_append,
      length_values_outline, length_valuesOf_outlines]

end

end Predicate

namespace Sql
namespace Draft

/-! ## Drafts that go on alike -/

structure Alike (d d' : Draft) : Prop where
  joins : d.joins = d'.joins
  used : d.params.length = d'.params.length

theorem Alike.refl (d : Draft) : d.Alike d := ⟨rfl, rfl⟩

theorem Alike.after {d d' : Draft} (h : d.Alike d') (paths : List AttributePath)
    {values values' : List Value} (hvalues : values.length = values'.length) :
    (d.after paths values).Alike (d'.after paths values') := by
  constructor
  · exact foldl_addJoin_congr h.joins _
  · show (d.params ++ values).length = (d'.params ++ values').length
    rw [List.length_append, List.length_append, h.used, hvalues]

theorem Alike.tableOf {d d' : Draft} (h : d.Alike d') (path : Option String) :
    d.tableOf path = d'.tableOf path := by
  cases path with
  | none => rfl
  | some path => rw [Draft.tableOf, Draft.tableOf, h.joins]

theorem Alike.column {d d' : Draft} (h : d.Alike d') (path : AttributePath) :
    (d.column path).1 = (d'.column path).1 := by
  have hjoined := h.after [path] (rfl : ([] : List Value).length = ([] : List Value).length)
  show ColumnRef.mk ((d.column path).2.tableOf path.owner) path.column =
    ColumnRef.mk ((d'.column path).2.tableOf path.owner) path.column
  rw [column_draft, column_draft, hjoined.tableOf]

theorem Alike.next {d d' : Draft} (h : d.Alike d') (path : AttributePath) :
    (d.column path).2.params.length + 1 = (d'.column path).2.params.length + 1 := by
  rw [column_params, column_params, h.used]

mutual

/-- A condition shows the outline of its predicate. -/
theorem condition_outline {d d' : Draft} (h : d.Alike d') (p : Predicate) :
    (d.condition p).1 = (d'.condition p.outline).1 := by
  cases p with
  | and parts =>
    cases parts with
    | nil => rfl
    | cons p rest => exact congrArg Condition.and (conditions_outline h (p :: rest))
  | compare path op value =>
    exact congrArg₂ (fun r n => Condition.compare r op n) (h.column path) (h.next path)
  | like path pattern escape =>
    exact congrArg₂ (fun r n => Condition.like r (path.type != .text) n escape) (h.column path)
      (h.next path)
  | isNull path => exact congrArg Condition.isNull (h.column path)
  | isNotNull path => exact congrArg Condition.isNotNull (h.column path)
  | isIn path items =>
    cases items with
    | nil => rfl
    | cons v rest =>
      have hplaces : List.range' ((d.column path).2.params.length + 1) (v :: rest).length =
          List.range' ((d'.column path).2.params.length + 1)
            (List.replicate (v :: rest).length Value.null).length := by
        rw [h.next path, List.length_replicate]
      exact congrArg₂ Condition.isIn (h.column path) hplaces

theorem conditions_outline {d d' : Draft} (h : d.Alike d') (ps : List Predicate) :
    (d.conditions ps).1 = (d'.conditions (Predicate.outlines ps)).1 := by
  cases ps with
  | nil => rfl
  | cons p rest =>
    -- The outline uses the same joins and as many values, so the rest starts alike.
    have hgrown : (d.condition p).2.Alike (d'.condition p.outline).2 := by
      rw [condition_draft, condition_draft, p.paths_outline]
      exact h.after p.paths p.length_values_outline.symm
    exact congrArg₂ List.cons (condition_outline h p) (conditions_outline hgrown rest)

end

theorem optionalCondition_outline {d d' : Draft} (h : d.Alike d') (p : Predicate) :
    (d.optionalCondition p).1 = (d'.optionalCondition p.outline).1 := by
  unfold optionalCondition
  rw [p.matchesAll_outline]
  by_cases hall : p.matchesAll = true
  · rw [if_pos hall, if_pos hall]
  · rw [if_neg hall, if_neg hall]
    exact congrArg some (condition_outline h p)

theorem Alike.optionalCondition {d d' : Draft} (h : d.Alike d') (p : Predicate) :
    (d.optionalCondition p).2.Alike (d'.optionalCondition p.outline).2 := by
  rw [optionalCondition_draft, optionalCondition_draft, p.paths_outline]
  exact h.after p.paths p.length_values_outline.symm

theorem Alike.sortKeys {d d' : Draft} (h : d.Alike d') (terms : List ResolvedTerm) :
    (d.sortKeys terms).1 = (d'.sortKeys terms).1 := by
  induction terms generalizing d d' with
  | nil => rfl
  | cons t rest ih =>
    have hgrown : (d.column t.path).2.Alike (d'.column t.path).2 := by
      rw [column_draft, column_draft]
      exact h.after [t.path] rfl
    exact congrArg₂ (fun r keys => SortKey.mk r t.direction t.nulls :: keys) (h.column t.path)
      (ih hgrown)

theorem Alike.sorted {d d' : Draft} (h : d.Alike d') (terms : List ResolvedTerm) :
    (d.sortKeys terms).2.Alike (d'.sortKeys terms).2 := by
  rw [sortKeys_draft, sortKeys_draft]
  exact h.after _ rfl

theorem Alike.window {d d' : Draft} (h : d.Alike d') {w w' : Option Window}
    (hw : w.isSome = w'.isSome) : (d.window w).1 = (d'.window w').1 := by
  cases w with
  | none =>
    cases w' with
    | none => rfl
    | some w' => cases hw
  | some w =>
    cases w' with
    | none => cases hw
    | some w' =>
      have hsecond : (d.params ++ [Value.int (Int64.ofNat w.limit.toNat)]).length =
          (d'.params ++ [Value.int (Int64.ofNat w'.limit.toNat)]).length := by
        rw [List.length_append, List.length_append, h.used]
        rfl
      exact congrArg₂ (fun m n => some (WindowParams.mk (m + 1) (n + 1))) h.used hsecond

end Draft

/-! ## Texts -/

namespace Statement

theorem joins_draft_outline (p : Predicate) (terms : List ResolvedTerm) (w w' : Option Window) :
    (draft p terms w).joins = (draft p.outline terms w').joins := by
  rw [draft, draft, p.paths_outline]
  exact Draft.foldl_addJoin_congr rfl _

/-- The text of a search shows the outline of its predicate, and whether there is a window. -/
theorem sql_select_outline (b : Backend) (table : String) (p : Predicate)
    (terms : List ResolvedTerm) {w w' : Option Window} (hw : w.isSome = w'.isSome) :
    (select table p terms w).sql b = (select table p.outline terms w').sql b := by
  have hfiltered := (Draft.Alike.refl Draft.empty).optionalCondition p
  have hsorted := hfiltered.sorted terms
  have hjoins : (select table p terms w).joins = (select table p.outline terms w').joins := by
    rw [select_joins, select_joins, joins_draft_outline p terms w w']
  have hcondition : (select table p terms w).condition =
      (select table p.outline terms w').condition :=
    Draft.optionalCondition_outline (Draft.Alike.refl Draft.empty) p
  have horder : (select table p terms w).order = (select table p.outline terms w').order :=
    hfiltered.sortKeys terms
  have hwindow : (select table p terms w).window = (select table p.outline terms w').window :=
    hsorted.window hw
  unfold sql
  rw [hjoins, hcondition, horder, hwindow]
  rfl

theorem sql_count_outline (b : Backend) (table : String) (p : Predicate) :
    (count table p).sql b = (count table p.outline).sql b := by
  have hjoins : (count table p).joins = (count table p.outline).joins := by
    rw [count_joins, count_joins, joins_draft_outline p [] none none]
  have hcondition : (count table p).condition = (count table p.outline).condition :=
    Draft.optionalCondition_outline (Draft.Alike.refl Draft.empty) p
  unfold sql
  rw [hjoins, hcondition]
  rfl

end Statement
end Sql
end TableSearch
