/-
The values of filters stay among the parameters.

Of a value, the text of a search shows whether it is null, for an equality, and how many
values it lists, for a test against a list.  Parameters that agree in this under every key
give predicates of one outline, so their searches have the same text, whatever the values
are: `values_confined`.
-/
import TableSearch.Proofs.Search.Compilation
import TableSearch.Proofs.Sql.Outline

namespace TableSearch

open Sql (Statement)

def Operator.wordsAlike : Operator → Value → Value → Bool
  | .eq, v, v' => v.isNull == v'.isNull
  | .notEq, v, v' => v.isNull == v'.isNull
  | .isIn, .list items, .list items' => items.length == items'.length
  | .isIn, _, _ => false
  | _, _, _ => true

def Filter.wordsAlike (key : String) (v v' : Value) : Bool :=
  match parseKey key with
  | .ok (operator, _) => operator.wordsAlike v v'
  | .error _ => true

/-- The same keys, and under each key values with the same text. -/
def SearchParams.Alike (params params' : SearchParams) : Prop :=
  params.keys = params'.keys ∧ ∀ entry ∈ params.entries, ∀ entry' ∈ params'.entries,
    entry.1 = entry'.1 → Filter.wordsAlike entry.1 entry.2 entry'.2 = true

instance (params params' : SearchParams) : Decidable (params.Alike params') :=
  inferInstanceAs (Decidable (_ ∧ _))

theorem SearchParams.Alike.entries {params params' : SearchParams} (h : params.Alike params') :
    List.Forall₂ (fun entry entry' => entry.1 = entry'.1 ∧
      Filter.wordsAlike entry.1 entry.2 entry'.2 = true) params.entries params'.entries := by
  obtain ⟨hkeys, hvalues⟩ := h
  have hpaired : List.Forall₂ (fun entry entry' => entry.1 = entry'.1) params.entries
      params'.entries := by
    have hsame : List.Forall₂ (· = ·) params.keys params'.keys := by
      rw [List.forall₂_eq_eq_eq]
      exact hkeys
    exact List.forall₂_map_right_iff.mp (List.forall₂_map_left_iff.mp hsame)
  obtain ⟨hlength, hpaired⟩ := List.forall₂_iff_zip.mp hpaired
  refine List.forall₂_iff_zip.mpr ⟨hlength, fun {entry entry'} hmem => ⟨hpaired hmem, ?_⟩⟩
  obtain ⟨hleft, hright⟩ := List.of_mem_zip hmem
  exact hvalues entry hleft entry' hright (hpaired hmem)

namespace Predicate

variable {path : AttributePath} {v v' : Value} {p p' : Predicate}

theorem outline_ordering {op : Comparison} (h : ordering path op v = .ok p)
    (h' : ordering path op v' = .ok p') : p.outline = p'.outline := by
  rw [(ordering_eq_ok.mp h).2, (ordering_eq_ok.mp h').2]
  rfl

theorem outline_ofOperator {op : Operator} (hv : op.wordsAlike v v' = true)
    (h : ofOperator path op v = .ok p) (h' : ofOperator path op v' = .ok p') :
    p.outline = p'.outline := by
  cases op with
  | eq =>
    cases h
    cases h'
    rw [show v.isNull = v'.isNull from beq_iff_eq.mp hv]
    split <;> rfl
  | notEq =>
    cases h
    cases h'
    rw [show v.isNull = v'.isNull from beq_iff_eq.mp hv]
    split <;> rfl
  | gt => exact outline_ordering h h'
  | gte => exact outline_ordering h h'
  | lt => exact outline_ordering h h'
  | lte => exact outline_ordering h h'
  | like =>
    obtain ⟨text, _, _, rfl⟩ := containing_eq_ok.mp h
    obtain ⟨text', _, _, rfl⟩ := containing_eq_ok.mp h'
    rw [outline, outline]
  | null =>
    cases h
    cases h'
    rfl
  | notNull =>
    cases h
    cases h'
    rfl
  | isIn =>
    obtain ⟨items, rfl, _, rfl⟩ := membership_eq_ok.mp h
    obtain ⟨items', rfl, _, rfl⟩ := membership_eq_ok.mp h'
    have hlength : items.length = items'.length := beq_iff_eq.mp hv
    rw [outline, outline, hlength]

/-- Under one key the path and the operator are the same, so only the values can differ. -/
theorem outline_ofEntry {r : Registry} {root : Entity} {entry entry' : String × Value}
    (hkey : entry.1 = entry'.1) (hv : Filter.wordsAlike entry.1 entry.2 entry'.2 = true)
    (h : OfEntry r root entry p) (h' : OfEntry r root entry' p') : p.outline = p'.outline := by
  obtain ⟨f, path, hf, hpath, hp⟩ := h
  obtain ⟨f', path', hf', hpath', hp'⟩ := h'
  have hparsed := Filter.key_of_parse hf
  have hparsed' := Filter.key_of_parse hf'
  rw [← hkey, hparsed] at hparsed'
  obtain ⟨hop, hfpath⟩ := Prod.mk.inj (Except.ok.inj hparsed')
  rw [← hfpath, hpath] at hpath'
  cases hpath'
  rw [Filter.wordsAlike, hparsed] at hv
  rw [Filter.value_of_parse hf] at hp
  rw [Filter.value_of_parse hf', ← hop] at hp'
  exact outline_ofOperator hv hp hp'

theorem outline_predicateOf {r : Registry} {root : Entity} {params params' : SearchParams}
    (halike : params.Alike params') (h : Plan.predicateOf r root params = .ok p)
    (h' : Plan.predicateOf r root params' = .ok p') : p.outline = p'.outline := by
  obtain ⟨parts, hparts, rfl⟩ := predicateOf_eq_ok h
  obtain ⟨parts', hparts', rfl⟩ := predicateOf_eq_ok h'
  have hboth := Success.forall₂_comp (Success.forall₂_comp hparts.flip halike.entries) hparts'
  have houtlines : parts.map outline = parts'.map outline := by
    rw [← List.forall₂_eq_eq_eq, List.forall₂_map_left_iff, List.forall₂_map_right_iff]
    refine hboth.imp ?_
    rintro part part' ⟨entry', ⟨entry, hpart, hkey, hv⟩, hpart'⟩
    exact outline_ofEntry hkey hv hpart hpart'
  rw [outline_all, outline_all, houtlines]

end Predicate

namespace Plan

variable {r : Registry} {name : String} {params params' : SearchParams} {sort : SortOrder}
  {plan plan' : Plan}

/-- Values are confined to the parameters.  Searches for parameters that are alike have the same
text, with any two windows or with none, and so have the counts of their rows. -/
theorem values_confined (h : Plan.make r name params sort = .ok plan)
    (h' : Plan.make r name params' sort = .ok plan') (halike : params.Alike params')
    (b : Backend) :
    (∀ w w', w.isSome = w'.isSome → (plan.select w).sql b = (plan'.select w').sql b) ∧
      plan.count.sql b = plan'.count.sql b := by
  obtain ⟨hroot, hpredicate, hterms⟩ := make_eq_ok h
  obtain ⟨hroot', hpredicate', hterms'⟩ := make_eq_ok h'
  have hentity : plan.entity = plan'.entity := Except.ok.inj (hroot.symm.trans hroot')
  rw [← hentity] at hpredicate' hterms'
  have hterms : plan.terms = plan'.terms := Except.ok.inj
    ((Success.mapM_eq_ok.mpr hterms).symm.trans (Success.mapM_eq_ok.mpr hterms'))
  have houtline := Predicate.outline_predicateOf halike hpredicate hpredicate'
  constructor
  · intro w w' hw
    show (Statement.select plan.entity.table plan.predicate plan.terms w).sql b =
      (Statement.select plan'.entity.table plan'.predicate plan'.terms w').sql b
    rw [Statement.sql_select_outline b _ _ _ hw, houtline, hentity, hterms]
    exact (Statement.sql_select_outline b _ _ _ rfl).symm
  · show (Statement.count plan.entity.table plan.predicate).sql b =
      (Statement.count plan'.entity.table plan'.predicate).sql b
    rw [Statement.sql_count_outline, houtline, hentity]
    exact (Statement.sql_count_outline b _ _).symm

/-- A search for somebody of a name, by the text `name`. -/
def named (name : String) : SearchParams :=
  Dict.set (Dict.set Keyed.empty "EQ_manager.name" (.text name)) "IN_id"
    (.list [.int 1, .text name])

theorem values_confined_named : ∃ plan plan',
    Plan.make people "people" (named "Ben") .unsorted = .ok plan ∧
    Plan.make people "people" (named "') OR 1=1 --") .unsorted = .ok plan' ∧
    (plan'.select (some ⟨1, 0⟩)).sql .postgres = (plan.select (some ⟨20, 40⟩)).sql .postgres ∧
    plan'.count.sql .postgres = plan.count.sql .postgres := by
  have halike : (named "Ben").Alike (named "') OR 1=1 --") := by decide +kernel
  have hmade : ∀ s ∈ ["Ben", "') OR 1=1 --"], (Plan.make people "people" (named s)
      .unsorted).isOk = true := by decide +kernel
  have hleft := hmade "Ben" (by simp)
  have hright := hmade "') OR 1=1 --" (by simp)
  cases hplan : Plan.make people "people" (named "Ben") .unsorted with
  | error e =>
    rw [hplan] at hleft
    cases hleft
  | ok plan =>
    cases hplan' : Plan.make people "people" (named "') OR 1=1 --") .unsorted with
    | error e =>
      rw [hplan'] at hright
      cases hright
    | ok plan' =>
      obtain ⟨hselect, hcount⟩ := values_confined hplan hplan' halike .postgres
      have hwindows := hselect (some ⟨20, 40⟩) (some ⟨1, 0⟩) rfl
      exact ⟨plan, plan', rfl, rfl, hwindows.symm, hcount.symm⟩

end Plan
end TableSearch
