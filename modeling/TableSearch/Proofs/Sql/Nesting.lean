/-
Conjunctions inside of conjunctions.

However the tests of a predicate are nested, they are drafted in their order, and what the
nesting adds to a condition is groups and conditions that always hold.  `nesting_is_immaterial`
says what that makes of the text, and that the rows do not depend on it.
-/
import TableSearch.Proofs.Predicate.Build
import TableSearch.Proofs.Search.Compilation
import TableSearch.Proofs.Sql.Conjunct

namespace TableSearch

namespace Truth

theorem yes_and (t : Truth) : Truth.yes.and t = t := by
  cases t <;> rfl

theorem and_yes (t : Truth) : t.and .yes = t := by
  cases t <;> rfl

theorem and_assoc (s t u : Truth) : (s.and t).and u = s.and (t.and u) := by
  cases s <;> cases t <;> cases u <;> rfl

theorem and_beq_yes (s t : Truth) : (s.and t == .yes) = (s == .yes && t == .yes) := by
  cases s <;> cases t <;> rfl

end Truth

namespace Predicate

mutual

/-- The tests of a predicate and its empty conjunctions, depth first. -/
def spine : Predicate → List Predicate
  | .and [] => [.and []]
  | .and (p :: rest) => spineOf (p :: rest)
  | p => [p]

def spineOf : List Predicate → List Predicate
  | [] => []
  | p :: rest => p.spine ++ spineOf rest

end

mutual

def empties : Predicate → Nat
  | .and [] => 1
  | .and (p :: rest) => emptiesOf (p :: rest)
  | _ => 0

def emptiesOf : List Predicate → Nat
  | [] => 0
  | p :: rest => p.empties + emptiesOf rest

end

theorem valuesOf_eq_flatMap (ps : List Predicate) : valuesOf ps = ps.flatMap values := by
  induction ps with
  | nil => rfl
  | cons p rest ih => rw [valuesOf, ih, List.flatMap_cons]

theorem values_all (ps : List Predicate) : (all ps).values = ps.flatMap values := by
  unfold all
  split
  · exact (List.append_nil _).symm
  · exact valuesOf_eq_flatMap ps

mutual

/-- What is read off the tests is read off the tree. -/
theorem flatMap_leaves {β : Type} {f : Predicate → List β} {g : List Predicate → List β}
    (hand : ∀ ps, f (.and ps) = g ps) (hnil : g [] = [])
    (hcons : ∀ p ps, g (p :: ps) = f p ++ g ps) (p : Predicate) : p.leaves.flatMap f = f p := by
  cases p with
  | and parts =>
    rw [leaves, hand]
    exact flatMap_leavesOf hand hnil hcons parts
  | _ => exact List.append_nil _

theorem flatMap_leavesOf {β : Type} {f : Predicate → List β} {g : List Predicate → List β}
    (hand : ∀ ps, f (.and ps) = g ps) (hnil : g [] = [])
    (hcons : ∀ p ps, g (p :: ps) = f p ++ g ps) (ps : List Predicate) :
    (leavesOf ps).flatMap f = g ps := by
  cases ps with
  | nil => exact hnil.symm
  | cons p rest =>
    rw [leavesOf, List.flatMap_append, flatMap_leaves hand hnil hcons p,
      flatMap_leavesOf hand hnil hcons rest, hcons]

end

theorem paths_leaves (p : Predicate) : p.leaves.flatMap paths = p.paths :=
  flatMap_leaves (fun _ => rfl) rfl (fun _ _ => rfl) p

theorem values_leaves (p : Predicate) : p.leaves.flatMap values = p.values :=
  flatMap_leaves (fun _ => rfl) rfl (fun _ _ => rfl) p

mutual

theorem ne_and_of_mem_leaves {p leaf : Predicate} (h : leaf ∈ p.leaves) :
    ∀ parts, leaf ≠ .and parts := by
  cases p with
  | and parts => exact ne_and_of_mem_leavesOf h
  | _ =>
    rw [List.mem_singleton.mp h]
    simp

theorem ne_and_of_mem_leavesOf {ps : List Predicate} {leaf : Predicate} (h : leaf ∈ leavesOf ps) :
    ∀ parts, leaf ≠ .and parts := by
  cases ps with
  | nil => cases h
  | cons p rest =>
    rcases List.mem_append.mp h with h | h
    · exact ne_and_of_mem_leaves h
    · exact ne_and_of_mem_leavesOf h

end

/-- The tests of a predicate are those of the list of its tests. -/
theorem leaves_all_leaves (p : Predicate) : (all p.leaves).leaves = p.leaves := by
  refine leaves_all fun leaf h => ?_
  cases leaf with
  | and parts => exact absurd rfl (ne_and_of_mem_leaves h parts)
  | _ => rfl

/-- Every test has one path, and a predicate lists the paths in the order of its tests. -/
theorem leaves_paths (p : Predicate) :
    List.Forall₂ (fun leaf path => leaf.paths = [path]) p.leaves p.paths := by
  rw [← paths_leaves]
  have hne : ∀ leaf ∈ p.leaves, ∀ parts, leaf ≠ .and parts := fun _ h => ne_and_of_mem_leaves h
  revert hne
  generalize p.leaves = ps
  intro hne
  induction ps with
  | nil => exact .nil
  | cons leaf rest ih =>
    obtain ⟨path, hpath⟩ : ∃ path, leaf.paths = [path] := by
      cases leaf with
      | and parts => exact absurd rfl (hne _ List.mem_cons_self parts)
      | _ => exact ⟨_, rfl⟩
    rw [List.flatMap_cons, hpath]
    exact .cons hpath (ih fun q hq => hne q (List.mem_cons_of_mem leaf hq))

end Predicate

namespace Sql

namespace Condition

def isAlways : Condition → Bool
  | .always => true
  | _ => false

/-- The conditions that a condition is the conjunction of, without those that always hold. -/
def atoms (c : Condition) : List Condition :=
  c.flatten.filter fun c => !c.isAlways

mutual

theorem ne_and_of_mem_flatten {c c' : Condition} (h : c' ∈ c.flatten) :
    ∀ parts, c' ≠ .and parts := by
  cases c with
  | and parts => exact ne_and_of_mem_flattenParts h
  | _ =>
    rw [List.mem_singleton.mp h]
    simp

theorem ne_and_of_mem_flattenParts {cs : List Condition} {c' : Condition}
    (h : c' ∈ flattenParts cs) : ∀ parts, c' ≠ .and parts := by
  cases cs with
  | nil => cases h
  | cons c rest =>
    rcases List.mem_append.mp h with h | h
    · exact ne_and_of_mem_flatten h
    · exact ne_and_of_mem_flattenParts h

end

/-! ## Texts -/

theorem head_cast (b : Backend) (cast : Bool) (r : ColumnRef) :
    ∃ c, (if cast then b.castText r.sql else r.sql).toList.head? = some c ∧ c ≠ '1' := by
  cases cast with
  | false => exact ⟨'t', by simp [r.toList_sql], by decide⟩
  | true =>
    cases b with
    | sqlite => exact ⟨'C', by simp [Backend.castText], by decide⟩
    | postgres => exact ⟨'t', by simp [Backend.castText, r.toList_sql], by decide⟩

/-- Only the condition that always holds has its text. -/
theorem sql_eq_always (b : Backend) {c : Condition} (h : ∀ parts, c ≠ .and parts) :
    (c.sql b == "1=1") = c.isAlways := by
  have hbegins : ∀ {s : String}, (∃ c, s.toList.head? = some c ∧ c ≠ '1') →
      ∀ t, (s ++ t == "1=1") = false := by
    rintro s ⟨c, hs, hc⟩ t
    refine beq_false_of_ne fun heq => hc ?_
    have hhead := congrArg (fun u : String => u.toList.head?) heq
    simp only [String.toList_append, List.head?_append, hs, Option.some_or] at hhead
    exact Option.some.inj hhead
  have hcolumn := fun r : ColumnRef => hbegins (head_cast b false r)
  cases c with
  | always =>
    rw [sql]
    rfl
  | never =>
    rw [sql]
    decide
  | compare ref op param =>
    rw [sql]
    simp only [String.append_assoc]
    exact hcolumn ref _
  | like ref cast param escape =>
    rw [sql]
    simp only [String.append_assoc]
    exact hbegins (head_cast b cast ref) _
  | isNull ref =>
    rw [sql]
    exact hcolumn ref _
  | isNotNull ref =>
    rw [sql]
    exact hcolumn ref _
  | isIn ref params =>
    rw [sql]
    simp only [String.append_assoc]
    exact hcolumn ref _
  | and parts => exact absurd rfl (h parts)

/-- Among the texts, those that always hold can be told from the others. -/
theorem filter_texts (b : Backend) (c : Condition) :
    (c.flatten.map (sql b)).filter (fun s => s != "1=1") = c.atoms.map (sql b) := by
  rw [List.filter_map, atoms]
  congr 1
  refine List.filter_congr fun c' hc' => ?_
  show (!(c'.sql b == "1=1")) = _
  rw [sql_eq_always b (ne_and_of_mem_flatten hc')]

theorem count_texts (b : Backend) (c : Condition) :
    (c.flatten.map (sql b)).count "1=1" = c.flatten.countP isAlways := by
  rw [List.count_eq_countP, List.countP_map]
  refine List.countP_congr fun c' hc' => ?_
  rw [Function.comp_apply, sql_eq_always b (ne_and_of_mem_flatten hc')]

/-- Conditions that are no conjunctions stand in no parentheses. -/
theorem partsSql_eq_joined (b : Backend) {cs : List Condition}
    (h : ∀ c ∈ cs, ∀ parts, c ≠ .and parts) :
    partsSql b cs = Text.joined " AND " (cs.map (sql b)) := by
  have hpart : ∀ c ∈ cs, partSql b c = c.sql b := by
    intro c hc
    have hgroup : c.isGroup = false := by
      cases c with
      | and parts => exact absurd rfl (h _ hc parts)
      | _ => rfl
    rw [partSql, hgroup]
    rfl
  clear h
  induction cs with
  | nil =>
    rw [partsSql]
    rfl
  | cons c rest ih =>
    obtain ⟨hc, hrest⟩ := List.forall_mem_cons.mp hpart
    cases rest with
    | nil =>
      rw [partsSql, hc, Text.joined, List.map_cons, List.map_nil, String.intercalate_singleton]
    | cons next rest =>
      rw [partsSql, hc, ih hrest, Text.joined, Text.joined, List.map_cons, List.map_cons,
        List.map_cons, String.intercalate_cons_cons]
      intro e
      cases e

theorem eq_always {c : Condition} (h : c.isAlways = true) : c = .always := by
  cases c with
  | always => rfl
  | _ => cases h

/-! ## Meaning -/

section Meaning

variable {m : Meaning} {params : List Value} {operand : ColumnRef → Operand}

theorem holdsAll_append (cs ds : List Condition) :
    holdsAll m params operand (cs ++ ds) =
      (holdsAll m params operand cs).and (holdsAll m params operand ds) := by
  induction cs with
  | nil => exact (Truth.yes_and _).symm
  | cons c rest ih => rw [List.cons_append, holdsAll, holdsAll, ih, Truth.and_assoc]

theorem anyMeetsOverlong_append (cs ds : List Condition) :
    anyMeetsOverlong m params operand (cs ++ ds) =
      (anyMeetsOverlong m params operand cs ||
        (holdsAll m params operand cs == .yes && anyMeetsOverlong m params operand ds)) := by
  induction cs with
  | nil => rfl
  | cons c rest ih =>
    rw [List.cons_append, anyMeetsOverlong, anyMeetsOverlong, ih, holdsAll, Truth.and_beq_yes,
      Bool.and_or_distrib_left, Bool.or_assoc, Bool.and_assoc]

mutual

theorem holdsAll_flatten (c : Condition) :
    holdsAll m params operand c.flatten = c.holds m params operand := by
  cases c with
  | and parts => exact holdsAll_flattenParts parts
  | _ => exact Truth.and_yes _

theorem holdsAll_flattenParts (cs : List Condition) :
    holdsAll m params operand (flattenParts cs) = holdsAll m params operand cs := by
  cases cs with
  | nil => rfl
  | cons c rest =>
    rw [flattenParts, holdsAll_append, holdsAll_flatten c, holdsAll_flattenParts rest, holdsAll]

end

mutual

theorem anyMeetsOverlong_flatten (c : Condition) :
    anyMeetsOverlong m params operand c.flatten = c.meetsOverlong m params operand := by
  cases c with
  | and parts => exact anyMeetsOverlong_flattenParts parts
  | _ => simp [flatten, anyMeetsOverlong]

theorem anyMeetsOverlong_flattenParts (cs : List Condition) :
    anyMeetsOverlong m params operand (flattenParts cs) =
      anyMeetsOverlong m params operand cs := by
  cases cs with
  | nil => rfl
  | cons c rest =>
    rw [flattenParts, anyMeetsOverlong_append, anyMeetsOverlong_flatten c,
      anyMeetsOverlong_flattenParts rest, holdsAll_flatten c, anyMeetsOverlong]

end

/-- A condition that always holds says nothing and searches for nothing. -/
theorem filter_isAlways (cs : List Condition) :
    holdsAll m params operand (cs.filter fun c => !c.isAlways) = holdsAll m params operand cs ∧
      anyMeetsOverlong m params operand (cs.filter fun c => !c.isAlways) =
        anyMeetsOverlong m params operand cs := by
  induction cs with
  | nil => exact ⟨rfl, rfl⟩
  | cons c rest ih =>
    obtain ⟨hholds, hmeets⟩ := ih
    by_cases hc : c.isAlways = true
    · rw [List.filter_cons_of_neg (by simp [hc]), hholds, hmeets, eq_always hc]
      exact ⟨(Truth.yes_and _).symm, rfl⟩
    · rw [List.filter_cons_of_pos (by simp [hc]), holdsAll, anyMeetsOverlong, hholds, hmeets]
      exact ⟨rfl, rfl⟩

end Meaning

theorem refsOf_append (cs ds : List Condition) : refsOf (cs ++ ds) = refsOf cs ++ refsOf ds := by
  induction cs with
  | nil => rfl
  | cons c rest ih => rw [List.cons_append, refsOf, refsOf, ih, List.append_assoc]

mutual

theorem refsOf_flatten (c : Condition) : refsOf c.flatten = c.refs := by
  cases c with
  | and parts => exact refsOf_flattenParts parts
  | _ => exact List.append_nil _

theorem refsOf_flattenParts (cs : List Condition) : refsOf (flattenParts cs) = refsOf cs := by
  cases cs with
  | nil => rfl
  | cons c rest =>
    rw [flattenParts, refsOf_append, refsOf_flatten c, refsOf_flattenParts rest, refsOf]

end

/-- A condition that always holds names no column. -/
theorem refsOf_filter (cs : List Condition) :
    refsOf (cs.filter fun c => !c.isAlways) = refsOf cs := by
  induction cs with
  | nil => rfl
  | cons c rest ih =>
    by_cases hc : c.isAlways = true
    · rw [List.filter_cons_of_neg (by simp [hc]), ih, eq_always hc]
      rfl
    · rw [List.filter_cons_of_pos (by simp [hc]), refsOf, refsOf, ih]

end Condition

namespace Draft

theorem conditions_append (d : Draft) (ps qs : List Predicate) :
    d.conditions (ps ++ qs) =
      ((d.conditions ps).1 ++ ((d.conditions ps).2.conditions qs).1,
        ((d.conditions ps).2.conditions qs).2) := by
  induction ps generalizing d with
  | nil => rfl
  | cons p rest ih =>
    show (_ :: ((d.condition p).2.conditions (rest ++ qs)).1,
      ((d.condition p).2.conditions (rest ++ qs)).2) = _
    rw [ih]
    rfl

theorem conditions_single (d : Draft) (p : Predicate) :
    d.conditions [p] = ([(d.condition p).1], (d.condition p).2) := rfl

/-- A test is drafted as a condition that is no conjunction. -/
theorem condition_ne_and {p : Predicate} (h : ∀ parts, p ≠ .and parts) (d : Draft) :
    ∀ parts, (d.condition p).1 ≠ .and parts := by
  cases p with
  | and parts => exact absurd rfl (h parts)
  | isIn path items => cases items <;> simp [condition]
  | _ => simp [condition]

theorem conditions_ne_and {ps : List Predicate} (h : ∀ p ∈ ps, ∀ parts, p ≠ .and parts)
    (d : Draft) : ∀ c ∈ (d.conditions ps).1, ∀ parts, c ≠ .and parts := by
  induction ps generalizing d with
  | nil => exact List.forall_mem_nil _
  | cons p rest ih =>
    obtain ⟨hp, hrest⟩ := List.forall_mem_cons.mp h
    exact List.forall_mem_cons.mpr ⟨condition_ne_and hp d, ih hrest (d.condition p).2⟩

mutual

/-- A condition is the conjunction of the conditions of the tests and the empty conjunctions. -/
theorem conditions_spine (d : Draft) (p : Predicate) :
    d.conditions p.spine = ((d.condition p).1.flatten, (d.condition p).2) := by
  cases p with
  | and parts =>
    cases parts with
    | nil => rfl
    | cons p rest => exact conditions_spineOf d (p :: rest)
  | isIn path items => cases items <;> rfl
  | _ => rfl

theorem conditions_spineOf (d : Draft) (ps : List Predicate) :
    d.conditions (Predicate.spineOf ps) =
      (Condition.flattenParts (d.conditions ps).1, (d.conditions ps).2) := by
  cases ps with
  | nil => rfl
  | cons p rest =>
    rw [Predicate.spineOf, conditions_append, conditions_spine d p,
      conditions_spineOf (d.condition p).2 rest]
    rfl

end

mutual

/-- Without those that always hold, these are the conditions of the tests. -/
theorem conditions_leaves (d : Draft) (p : Predicate) :
    d.conditions p.leaves = ((d.condition p).1.atoms, (d.condition p).2) := by
  cases p with
  | and parts =>
    cases parts with
    | nil => rfl
    | cons p rest => exact conditions_leavesOf d (p :: rest)
  | isIn path items => cases items <;> rfl
  | _ => rfl

theorem conditions_leavesOf (d : Draft) (ps : List Predicate) :
    d.conditions (Predicate.leavesOf ps) =
      ((Condition.flattenParts (d.conditions ps).1).filter (fun c => !c.isAlways),
        (d.conditions ps).2) := by
  cases ps with
  | nil => rfl
  | cons p rest =>
    have hparts : Condition.flattenParts (d.conditions (p :: rest)).1 =
        (d.condition p).1.flatten ++
          Condition.flattenParts ((d.condition p).2.conditions rest).1 := rfl
    rw [Predicate.leavesOf, conditions_append, conditions_leaves d p,
      conditions_leavesOf (d.condition p).2 rest, hparts, List.filter_append]
    rfl

end

mutual

theorem isFull_condition (d : Draft) (p : Predicate) : (d.condition p).1.isFull = true := by
  cases p with
  | and parts =>
    cases parts with
    | nil => rfl
    | cons p rest => exact areFull_conditions d (p :: rest)
  | isIn path items => cases items <;> rfl
  | _ => rfl

theorem areFull_conditions (d : Draft) (ps : List Predicate) :
    Condition.areFull (d.conditions ps).1 = true := by
  cases ps with
  | nil => rfl
  | cons p rest =>
    show ((d.condition p).1.isFull &&
      Condition.areFull ((d.condition p).2.conditions rest).1) = true
    rw [isFull_condition d p, areFull_conditions _ rest]
    rfl

end

mutual

theorem countP_condition (d : Draft) (p : Predicate) :
    (d.condition p).1.flatten.countP Condition.isAlways = p.empties := by
  cases p with
  | and parts =>
    cases parts with
    | nil => rfl
    | cons p rest => exact countP_conditions d (p :: rest)
  | isIn path items => cases items <;> rfl
  | _ => rfl

theorem countP_conditions (d : Draft) (ps : List Predicate) :
    (Condition.flattenParts (d.conditions ps).1).countP Condition.isAlways =
      Predicate.emptiesOf ps := by
  cases ps with
  | nil => rfl
  | cons p rest =>
    show ((d.condition p).1.flatten ++
      Condition.flattenParts ((d.condition p).2.conditions rest).1).countP _ = _
    rw [List.countP_append, countP_condition d p, countP_conditions _ rest]
    rfl

end

end Draft

namespace Statement

/-! ## Statements -/

def tests : Option Condition → List Condition
  | none => []
  | some c => c.atoms

def TooDeep (m : Meaning) (s : Statement) : Prop :=
  s.checkLimits m.limits = .error .tooDeep

section Tests

variable {m : Meaning} {c : Option Condition}

theorem passes_tests {params : List Value} {tables : List Table} {tuple : Tuple} :
    Condition.passes m params tables tuple c =
      (Condition.holdsAll m params (ColumnRef.operand tables tuple) (tests c) == .yes) := by
  cases c with
  | none => rfl
  | some c =>
    rw [tests, Condition.atoms, (Condition.filter_isAlways _).1, Condition.holdsAll_flatten]
    rfl

theorem meetsOverlong_tests {params : List Value} {operand : ColumnRef → Operand} :
    (c.any fun c => c.meetsOverlong m params operand) =
      Condition.anyMeetsOverlong m params operand (tests c) := by
  cases c with
  | none => rfl
  | some c =>
    rw [tests, Condition.atoms, (Condition.filter_isAlways _).2,
      Condition.anyMeetsOverlong_flatten]
    rfl

theorem refs_tests (s : Statement) :
    s.refs = joinRefs 1 s.joins ++ Condition.refsOf (tests s.condition) ++
      s.order.map SortKey.ref := by
  unfold refs
  cases s.condition with
  | none => rfl
  | some c => rw [tests, Condition.atoms, Condition.refsOf_filter, Condition.refsOf_flatten]

/-- The condition's depth is all that a limit can tell of it. -/
theorem checkLimits_condition (s : Statement) (c : Option Condition) :
    ({ s with condition := c } : Statement).checkLimits m.limits = s.checkLimits m.limits ∨
      TooDeep m { s with condition := c } ∨ TooDeep m s := by
  unfold TooDeep checkLimits
  by_cases htables : m.limits.tables < s.joins.length + 1
  · simp [htables]
  · by_cases hparams : m.limits.parameters < s.params.length
    · simp [htables, hparams]
    · by_cases hdepth : (c.any fun c => m.limits.depth < c.depth) = true
      · simp [htables, hparams, hdepth]
      · by_cases hdepth' : (s.condition.any fun c => m.limits.depth < c.depth) = true
        · simp [htables, hparams, hdepth']
        · simp [htables, hparams, hdepth, hdepth']

/-- A statement with another condition of the same tests matches the same tuples, in the same
order. -/
theorem matching_of_tests (m : Meaning) (s : Statement) (htests : tests c = tests s.condition) :
    ({ s with condition := c } : Statement).matching m = s.matching m ∧
      ({ s with condition := c } : Statement).ordered m = s.ordered m := by
  have hmatching : ({ s with condition := c } : Statement).matching m = s.matching m := by
    funext root joined
    unfold matching
    simp only [passes_tests, htests]
    rfl
  refine ⟨hmatching, ?_⟩
  funext root joined
  unfold ordered
  rw [hmatching]

/-- It gives the same answers, unless one of the two is too deep. -/
theorem answers_of_tests (m : Meaning) (d : Database) (s : Statement)
    (htests : tests c = tests s.condition) :
    (({ s with condition := c } : Statement).rows m d = s.rows m d ∧
      ({ s with condition := c } : Statement).total m d = s.total m d) ∨
      TooDeep m { s with condition := c } ∨ TooDeep m s := by
  refine (checkLimits_condition s c).imp_left fun hlimits => ?_
  obtain ⟨hmatching, hordered⟩ := matching_of_tests m s htests
  have hrefs : ({ s with condition := c } : Statement).refs = s.refs := by
    rw [refs_tests, refs_tests]
    show joinRefs 1 s.joins ++ Condition.refsOf (tests c) ++ _ = _
    rw [htests]
  have htables : ({ s with condition := c } : Statement).tables m d = s.tables m d := by
    unfold tables
    rw [hlimits, hrefs]
  have hpatterns : ({ s with condition := c } : Statement).checkPatterns m = s.checkPatterns m := by
    funext root joined
    unfold checkPatterns
    simp only [meetsOverlong_tests, htests]
    rfl
  unfold rows total
  rw [htables, hmatching, hordered, hpatterns]
  exact ⟨rfl, rfl⟩

end Tests

/-- Statements for the same tests differ in their condition only. -/
theorem statements_of_leaves (table : String) {p q : Predicate} (terms : List ResolvedTerm)
    (w : Option Window) (h : p.leaves = q.leaves) :
    select table p terms w =
        { select table q terms w with condition := (select table p terms w).condition } ∧
      count table p = { count table q with condition := (count table p).condition } := by
  have hdraft : (Draft.empty.optionalCondition p).2 = (Draft.empty.optionalCondition q).2 := by
    rw [Draft.optionalCondition_draft, Draft.optionalCondition_draft, ← p.paths_leaves,
      ← p.values_leaves, h, q.paths_leaves, q.values_leaves]
  cases hp : Draft.empty.optionalCondition p
  cases hq : Draft.empty.optionalCondition q
  rw [hp, hq] at hdraft
  cases hdraft
  simp only [select, count, hp, hq, and_self]

theorem tests_optionalCondition (d : Draft) (p : Predicate) :
    tests (d.optionalCondition p).1 = (d.conditions p.leaves).1 := by
  unfold Draft.optionalCondition
  by_cases h : p.matchesAll = true
  · rw [if_pos h, Predicate.matchesAll_iff.mp h]
    rfl
  · rw [if_neg h, Draft.conditions_leaves]
    rfl

/-- The condition of a predicate that is no empty conjunction. -/
theorem optionalCondition_eq {d : Draft} {p : Predicate} (h : p ≠ .matchAll) :
    (d.optionalCondition p).1 = some (d.condition p).1 := by
  unfold Draft.optionalCondition
  rw [if_neg fun hall => h (Predicate.matchesAll_iff.mp hall)]

/-- Tests under one conjunction stand side by side. -/
theorem conditionSql_all (b : Backend) {ps : List Predicate} (hne : ps ≠ [])
    (hps : ∀ p ∈ ps, ∀ parts, p ≠ .and parts) (d : Draft) :
    conditionSql b (d.optionalCondition (.all ps)).1 =
      " WHERE " ++ Text.joined " AND " ((d.conditions ps).1.map (Condition.sql b)) := by
  match ps, hne with
  | [p], _ =>
    have hp : p ≠ .matchAll := hps p List.mem_cons_self []
    rw [Predicate.all_single, optionalCondition_eq hp, Draft.conditions_single, Text.joined,
      List.map_cons, List.map_nil, String.intercalate_singleton]
    rfl
  | p :: next :: rest, _ =>
    have hconditions := Draft.conditions_ne_and hps d
    show " WHERE " ++ Condition.sql b (.and (d.conditions (p :: next :: rest)).1) = _
    rw [Condition.sql, Condition.partsSql_eq_joined b hconditions]

/-- The text for the list of a predicate's tests. -/
theorem conditionSql_leaves (b : Backend) {p : Predicate} (hne : p.leaves ≠ []) (d : Draft) :
    conditionSql b (d.optionalCondition (.all p.leaves)).1 =
      " WHERE " ++ Text.joined " AND " ((d.condition p).1.atoms.map (Condition.sql b)) := by
  rw [conditionSql_all b hne (fun _ h => Predicate.ne_and_of_mem_leaves h) d,
    Draft.conditions_leaves]

/-- A predicate without tests has no condition but those that always hold. -/
theorem always_of_leaves_eq_nil (b : Backend) {p : Predicate} (h : p.leaves = []) (d : Draft) :
    ∀ s ∈ (d.condition p).1.flatten.map (Condition.sql b), s = "1=1" := by
  have hatoms := Condition.filter_texts b (d.condition p).1
  have hempty : (d.condition p).1.atoms = [] := by
    have hleaves := Draft.conditions_leaves d p
    rw [h] at hleaves
    exact (congrArg Prod.fst hleaves).symm
  rw [hempty] at hatoms
  simpa using List.filter_eq_nil_iff.mp hatoms

/-- How conjunctions are nested does not change a query.  The text of a condition reads as the
texts of the tests in their order, with `1=1` where a conjunction is empty.  Without its groups
and these it is the text for the list of the tests, and all else in the statement is the same.
Two predicates with the same tests select the same tuples of any tables, and a database gives the
same answers for them, unless it refuses one of the two as too deep.  And the paths of a predicate
are those of its tests, in their order. -/
theorem nesting_is_immaterial (b : Backend) (table : String) (p : Predicate)
    (terms : List ResolvedTerm) (w : Option Window) :
    (p = .matchAll → conditionSql b (select table p terms w).condition = "") ∧
    (p ≠ .matchAll → ∃ text atoms,
      conditionSql b (select table p terms w).condition = " WHERE " ++ text ∧
      conjuncts text = some atoms ∧
      atoms = (Draft.empty.conditions p.spine).1.map (Condition.sql b) ∧
      atoms.filter (fun s => s != "1=1") =
        (Draft.empty.conditions p.leaves).1.map (Condition.sql b) ∧
      atoms.count "1=1" = p.empties ∧
      (p.leaves ≠ [] → conditionSql b (select table (.all p.leaves) terms w).condition =
        " WHERE " ++ Text.joined " AND " (atoms.filter fun s => s != "1=1")) ∧
      (p.leaves = [] → ∀ s ∈ atoms, s = "1=1")) ∧
    select table p terms w = { select table (.all p.leaves) terms w with
      condition := (select table p terms w).condition } ∧
    (∀ p' : Predicate, p'.leaves = p.leaves → ∀ m : Meaning,
      (select table p' terms w).ordered m = (select table p terms w).ordered m ∧
      (count table p').matching m = (count table p).matching m ∧
      ∀ d : Database,
        ((select table p' terms w).rows m d = (select table p terms w).rows m d ∨
          TooDeep m (select table p' terms w) ∨ TooDeep m (select table p terms w)) ∧
        ((count table p').total m d = (count table p).total m d ∨
          TooDeep m (count table p') ∨ TooDeep m (count table p))) ∧
    List.Forall₂ (fun leaf path => leaf.paths = [path]) p.leaves p.paths := by
  refine ⟨?_, ?_, ?_, ?_, p.leaves_paths⟩
  · rintro rfl
    rfl
  · intro hp
    refine ⟨(Draft.empty.condition p).1.sql b,
      (Draft.empty.condition p).1.flatten.map (Condition.sql b), ?_,
      Condition.conjuncts_sql b (Draft.isFull_condition _ p), ?_, ?_, ?_, ?_, ?_⟩
    · exact congrArg (conditionSql b) (optionalCondition_eq hp)
    · rw [Draft.conditions_spine]
    · rw [Condition.filter_texts, Draft.conditions_leaves]
    · rw [Condition.count_texts, Draft.countP_condition]
    · intro hne
      rw [Condition.filter_texts]
      exact conditionSql_leaves b hne Draft.empty
    · exact fun hnone => always_of_leaves_eq_nil b hnone Draft.empty
  · exact (statements_of_leaves table terms w p.leaves_all_leaves.symm).1
  · intro p' hleaves m
    obtain ⟨hselect, hcount⟩ := statements_of_leaves table terms w hleaves
    have htests : tests (Draft.empty.optionalCondition p').1 =
        tests (Draft.empty.optionalCondition p).1 := by
      rw [tests_optionalCondition, tests_optionalCondition, hleaves]
    rw [hselect, hcount]
    refine ⟨(matching_of_tests m (select table p terms w) htests).2,
      (matching_of_tests m (count table p) htests).1, fun d => ⟨?_, ?_⟩⟩
    · exact (answers_of_tests m d (select table p terms w) htests).imp_left And.left
    · exact (answers_of_tests m d (count table p) htests).imp_left And.right

def named : AttributePath where
  path := "name"
  joins := []
  owner := none
  column := "name"
  type := .text

def nested : Predicate :=
  .and [.isNotNull named, .and [.and [], .and [.compare named .gt (.text "B"),
    .isIn named [.text "Ben", .text "Cy"]]]]

theorem nesting_is_immaterial_nested :
    nested ≠ .matchAll ∧ nested.leaves ≠ [] ∧
    (∃ text atoms,
      conditionSql .sqlite (select "people" nested [] none).condition = " WHERE " ++ text ∧
      conjuncts text = some atoms ∧ atoms.count "1=1" = 1 ∧
      conditionSql .sqlite (select "people" (.all nested.leaves) [] none).condition =
        " WHERE " ++ Text.joined " AND " (atoms.filter fun s => s != "1=1")) ∧
    (select "people" (.all nested.leaves) [] none).rows Meaning.sqlite Plan.office =
      (select "people" nested [] none).rows Meaning.sqlite Plan.office := by
  have hne : nested ≠ .matchAll := by simp [nested, Predicate.matchAll]
  have hleaves : nested.leaves ≠ [] := by simp [nested, Predicate.leaves, Predicate.leavesOf]
  obtain ⟨_, htext, _, hrows, _⟩ := nesting_is_immaterial .sqlite "people" nested [] none
  obtain ⟨text, atoms, hwhere, hread, _, _, hcount, hall, _⟩ := htext hne
  refine ⟨hne, hleaves, ⟨text, atoms, hwhere, hread, hcount, hall hleaves⟩, ?_⟩
  obtain ⟨_, _, hanswers⟩ := hrows (.all nested.leaves) rfl Meaning.sqlite
  rcases (hanswers Plan.office).1 with h | h | h
  · exact h
  · exact absurd h (by unfold TooDeep; decide +kernel)
  · exact absurd h (by unfold TooDeep; decide +kernel)

end Statement

end Sql
end TableSearch
