/-
What a statement's text holds of its own.

Most tokens of a statement are the same for every search: keywords, symbols, and the
aliases of tables.  The rest are marks: the names that the schema gave, the placeholders
and the escape characters.  `lex_select` and `lex_count` say which marks a statement
has and in which order, straight from the search and without its draft.
-/
import TableSearch.Proofs.Sql.Draft
import TableSearch.Proofs.Sql.Wording

namespace TableSearch
namespace Sql

/-! ## Kinds of tokens -/

namespace Token

def isMark : Token → Bool
  | .word _ => false
  | .symbol _ => false
  | _ => true

def name? : Token → Option String
  | .name text => some text
  | _ => none

def literal? : Token → Option String
  | .literal text => some text
  | _ => none

def placeholder? : Token → Option String
  | .placeholder text => some text
  | _ => none

/-- What words and symbols have nothing of is found among the marks. -/
theorem filterMap_marks {α : Type} {f : Token → Option α} (hword : ∀ s, f (.word s) = none)
    (hsymbol : ∀ s, f (.symbol s) = none) (ts : List Token) :
    (ts.filter isMark).filterMap f = ts.filterMap f := by
  induction ts with
  | nil => rfl
  | cons t rest ih =>
    cases t with
    | word s =>
      rw [List.filter_cons_of_neg Bool.false_ne_true, List.filterMap_cons_none (hword s), ih]
    | symbol s =>
      rw [List.filter_cons_of_neg Bool.false_ne_true, List.filterMap_cons_none (hsymbol s), ih]
    | name s => rw [List.filter_cons_of_pos rfl, List.filterMap_cons, List.filterMap_cons, ih]
    | literal s => rw [List.filter_cons_of_pos rfl, List.filterMap_cons, List.filterMap_cons, ih]
    | placeholder s =>
      rw [List.filter_cons_of_pos rfl, List.filterMap_cons, List.filterMap_cons, ih]
    | unclosed s => rw [List.filter_cons_of_pos rfl, List.filterMap_cons, List.filterMap_cons, ih]

end Token

end Sql

/-! ## Marks of a search -/

open Sql (Token placeholderToken)

namespace Predicate

mutual

/-- The marks of a predicate whose first value has place `n`. -/
def marks (b : Backend) (n : Nat) : Predicate → List Token
  | .and parts => marksOf b n parts
  | .compare path _ _ => [.name path.column, placeholderToken b n]
  | .like path _ escape =>
      [.name path.column, placeholderToken b n, .literal (String.singleton escape)]
  | .isNull path => [.name path.column]
  | .isNotNull path => [.name path.column]
  | .isIn _ [] => []
  | .isIn path (v :: rest) =>
      .name path.column :: (List.range' n (v :: rest).length).map (placeholderToken b)

def marksOf (b : Backend) (n : Nat) : List Predicate → List Token
  | [] => []
  | p :: rest => p.marks b n ++ marksOf b (n + p.values.length) rest

end

end Predicate

namespace Sql

/-- The marks of a sort term.  Where the words for missing values may be missing, a term that
places them names its column twice. -/
def ResolvedTerm.marks (b : Backend) (t : ResolvedTerm) : List Token :=
  match b, t.nulls with
  | .sqlite, .nullsFirst => [.name t.path.column, .name t.path.column]
  | .sqlite, .nullsLast => [.name t.path.column, .name t.path.column]
  | _, _ => [.name t.path.column]

theorem ResolvedTerm.eq_of_mem_marks {b : Backend} {term : ResolvedTerm} {t : Token}
    (h : t ∈ term.marks b) : t = .name term.path.column := by
  unfold ResolvedTerm.marks at h
  split at h <;> simpa using h

def joinMarks (js : List Join) : List Token :=
  js.flatMap fun j => [.name j.table, .name j.references, .name j.column]

/-! ## Conditions -/

namespace Condition

theorem filter_partTokens (c : Condition) (ts : List Token) :
    (partTokens c ts).filter Token.isMark = ts.filter Token.isMark := by
  unfold partTokens
  by_cases h : c.isGroup = true
  · rw [if_pos h, List.filter_append, List.filter_append]
    exact List.append_nil _
  · rw [if_neg h]

theorem filter_partsTokens (b : Backend) (c : Condition) (cs : List Condition) :
    (partsTokens b (c :: cs)).filter Token.isMark =
      (c.tokens b).filter Token.isMark ++ (partsTokens b cs).filter Token.isMark := by
  cases cs with
  | nil =>
    show (partTokens c (c.tokens b)).filter Token.isMark = _
    rw [filter_partTokens]
    exact (List.append_nil _).symm
  | cons next rest =>
    rw [partsTokens, List.filter_append, List.filter_append, filter_partTokens, List.append_assoc]
    · rfl
    · intro e
      cases e

end Condition

theorem filter_commaTokens (tss : List (List Token)) :
    (commaTokens tss).filter Token.isMark = tss.flatMap fun ts => ts.filter Token.isMark := by
  induction tss with
  | nil => rfl
  | cons ts rest ih =>
    cases rest with
    | nil => rw [commaTokens, List.flatMap_cons, List.flatMap_nil, List.append_nil]
    | cons next rest =>
      rw [commaTokens, List.filter_append, List.flatMap_cons, ← ih]
      · rfl
      · intro e
        cases e

theorem filter_castTokens (b : Backend) (cast : Bool) (ts : List Token) :
    (castTokens b cast ts).filter Token.isMark = ts.filter Token.isMark := by
  cases cast with
  | false => rfl
  | true =>
    cases b with
    | sqlite =>
      show ([Token.word "CAST", .symbol "("] ++ ts ++ _).filter Token.isMark = _
      rw [List.filter_append, List.filter_append]
      exact List.append_nil _
    | postgres =>
      show (ts ++ [Token.symbol "::"] ++ [Token.word "TEXT"]).filter Token.isMark = _
      rw [List.filter_append, List.filter_append, List.append_assoc]
      exact List.append_nil _

theorem filter_placeholders (b : Backend) (ns : List Nat) :
    ((ns.map fun n => [placeholderToken b n]).flatMap fun ts => ts.filter Token.isMark) =
      ns.map (placeholderToken b) := by
  rw [List.flatMap_map, List.map_eq_flatMap]
  rfl

theorem ColumnRef.filter_tokens (r : ColumnRef) :
    r.tokens.filter Token.isMark = [.name r.column] := rfl

namespace Draft

mutual

/-- A condition has the marks of its predicate. -/
theorem marks_condition (b : Backend) (d : Draft) (p : Predicate) :
    ((d.condition p).1.tokens b).filter Token.isMark = p.marks b (d.params.length + 1) := by
  cases p with
  | and parts =>
    cases parts with
    | nil => rfl
    | cons p rest => exact marks_conditions b d (p :: rest)
  | compare path op value =>
    show (Condition.tokens b (.compare (d.column path).1 op
      ((d.column path).2.params.length + 1))).filter _ = _
    rw [column_params, Condition.tokens, List.filter_append, List.filter_append,
      ColumnRef.filter_tokens]
    rfl
  | like path pattern escape =>
    show (Condition.tokens b (.like (d.column path).1 (path.type != .text)
      ((d.column path).2.params.length + 1) escape)).filter _ = _
    rw [column_params, Condition.tokens]
    simp only [List.filter_append, filter_castTokens, ColumnRef.filter_tokens]
    rfl
  | isNull path =>
    show (Condition.tokens b (.isNull (d.column path).1)).filter _ = _
    rw [Condition.tokens, List.filter_append, List.filter_append, ColumnRef.filter_tokens]
    rfl
  | isNotNull path =>
    show (Condition.tokens b (.isNotNull (d.column path).1)).filter _ = _
    rw [Condition.tokens, List.filter_append, List.filter_append, ColumnRef.filter_tokens]
    rfl
  | isIn path values =>
    cases values with
    | nil => rfl
    | cons v rest =>
      show (Condition.tokens b (.isIn (d.column path).1
        (List.range' ((d.column path).2.params.length + 1) (v :: rest).length))).filter _ = _
      rw [column_params, Condition.tokens]
      simp only [List.filter_append, filter_commaTokens, ColumnRef.filter_tokens,
        filter_placeholders]
      exact List.append_nil _

theorem marks_conditions (b : Backend) (d : Draft) (ps : List Predicate) :
    (Condition.partsTokens b (d.conditions ps).1).filter Token.isMark =
      Predicate.marksOf b (d.params.length + 1) ps := by
  cases ps with
  | nil => rfl
  | cons p rest =>
    show (Condition.partsTokens b
      ((d.condition p).1 :: ((d.condition p).2.conditions rest).1)).filter _ = _
    have hplace : (d.condition p).2.params.length + 1 = d.params.length + 1 + p.values.length := by
      rw [condition_draft, after, List.length_append, Nat.add_right_comm]
    rw [Condition.filter_partsTokens, marks_condition b d p, marks_conditions b _ rest, hplace]
    rfl

end

theorem marks_sortKeys (b : Backend) (d : Draft) (ts : List ResolvedTerm) :
    ((d.sortKeys ts).1.map (SortKey.tokens b)).flatMap (fun ts => ts.filter Token.isMark) =
      ts.flatMap (ResolvedTerm.marks b) := by
  induction ts generalizing d with
  | nil => rfl
  | cons t rest ih =>
    have hkey : ((({ ref := (d.column t.path).1, direction := t.direction, nulls := t.nulls } :
        SortKey)).tokens b).filter Token.isMark = t.marks b := by
      unfold SortKey.tokens ResolvedTerm.marks nullsTokens
      cases b with
      | sqlite => cases t.nulls <;> rfl
      | postgres => cases t.nulls <;> rfl
    show ((({ ref := (d.column t.path).1, direction := t.direction, nulls := t.nulls } :
      SortKey)).tokens b).filter Token.isMark ++ (((d.column t.path).2.sortKeys rest).1.map
        (SortKey.tokens b)).flatMap (fun ts => ts.filter Token.isMark) = _
    rw [hkey, ih]
    rfl

end Draft

/-! ## Joins -/

theorem filter_joinsTokens (n : Nat) (js : List JoinClause) :
    (joinsTokens n js).filter Token.isMark =
      js.flatMap fun j => [.name j.table, .name j.references, .name j.column] := by
  induction js generalizing n with
  | nil => rfl
  | cons j rest ih =>
    rw [joinsTokens, List.filter_append, ih]
    rfl

end Sql

namespace Join

def firstUses : List Join → List Join
  | [] => []
  | j :: rest => j :: (firstUses rest).filter fun k => k.path != j.path

end Join

namespace Sql
namespace Draft

/-- A draft takes up the first join for each path that it does not know. -/
theorem foldl_addJoin_uses (d : Draft) (js : List Join) :
    (js.foldl addJoin d).joins.map
        (fun k => (k.1, k.2.table, k.2.references, k.2.column)) =
      d.joins.map (fun k => (k.1, k.2.table, k.2.references, k.2.column)) ++
        ((Join.firstUses js).filter fun j => !d.joins.any fun k => k.1 == j.path).map
          (fun j => (j.path, j.table, j.references, j.column)) := by
  induction js generalizing d with
  | nil => exact (List.append_nil _).symm
  | cons j rest ih =>
    rw [List.foldl_cons, ih, Join.firstUses]
    by_cases hknown : (d.joins.any fun k => k.1 == j.path) = true
    · have hsame : d.addJoin j = d := if_pos hknown
      have hrest : ∀ k ∈ Join.firstUses rest, (!d.joins.any fun l => l.1 == k.path) =
          ((!d.joins.any fun l => l.1 == k.path) && k.path != j.path) := by
        intro k _
        by_cases hpath : k.path = j.path
        · rw [hpath, hknown]
          rfl
        · simp [hpath]
      rw [hsame, List.filter_cons_of_neg (by simp [hknown]), List.filter_filter,
        List.filter_congr hrest]
    · have hgrown : (d.addJoin j).joins = d.joins ++ [(j.path, d.clause j)] := by
        rw [addJoin, if_neg hknown]
        rfl
      have hrest : ∀ k ∈ Join.firstUses rest,
          (!(d.joins ++ [(j.path, d.clause j)]).any fun l => l.1 == k.path) =
            ((!d.joins.any fun l => l.1 == k.path) && k.path != j.path) := by
        intro k _
        have hcomm : (j.path == k.path) = (k.path == j.path) := BEq.comm
        simp [bne, hcomm]
      have hnew : (d.joins.any fun k => k.1 == j.path) = false := Bool.eq_false_iff.mpr hknown
      rw [hgrown, List.filter_cons_of_pos (by rw [hnew]; rfl), List.filter_filter,
        List.filter_congr hrest, List.map_append, List.append_assoc]
      rfl

/-- From the start, a draft takes up the first join for each path. -/
theorem after_uses (paths : List AttributePath) (values : List Value) :
    (empty.after paths values).joins.map (fun k => (k.1, k.2.table, k.2.references, k.2.column)) =
      (Join.firstUses (paths.flatMap AttributePath.joins)).map
        (fun j => (j.path, j.table, j.references, j.column)) := by
  have huses := foldl_addJoin_uses empty (paths.flatMap AttributePath.joins)
  have hall : (Join.firstUses (paths.flatMap AttributePath.joins)).filter
      (fun j => !empty.joins.any fun k => k.1 == j.path) =
        Join.firstUses (paths.flatMap AttributePath.joins) := List.filter_true _
  rw [hall] at huses
  exact huses

/-- The marks of the joins that a draft took up: each relation's once, by its first use. -/
theorem marks_after (paths : List AttributePath) (values : List Value) :
    ((empty.after paths values).joins.map Prod.snd).flatMap
        (fun j => [Token.name j.table, .name j.references, .name j.column]) =
      joinMarks (Join.firstUses (paths.flatMap AttributePath.joins)) := by
  have hmarks := congrArg
    (List.flatMap fun u => [Token.name u.2.1, .name u.2.2.1, .name u.2.2.2])
    (after_uses paths values)
  rw [List.flatMap_map, List.flatMap_map] at hmarks
  rw [List.flatMap_map]
  exact hmarks

end Draft

namespace Statement

/-! ## Statements -/

/-- The marks of a search's statement: the table, the joins by their first uses, the
predicate, the order, and the window. -/
def selectMarks (b : Backend) (table : String) (p : Predicate) (terms : List ResolvedTerm)
    (w : Option Window) : List Token :=
  .name table :: joinMarks (Join.firstUses
      ((p.paths ++ terms.map ResolvedTerm.path).flatMap AttributePath.joins)) ++
    p.marks b 1 ++ terms.flatMap (ResolvedTerm.marks b) ++
    (List.range' (p.values.length + 1) (Draft.windowValues w).length).map (placeholderToken b)

def countMarks (b : Backend) (table : String) (p : Predicate) : List Token :=
  .name table :: joinMarks (Join.firstUses (p.paths.flatMap AttributePath.joins)) ++ p.marks b 1

theorem filter_conditionTokens (b : Backend) (p : Predicate) :
    (conditionTokens b (Draft.empty.optionalCondition p).1).filter Token.isMark = p.marks b 1 := by
  unfold Draft.optionalCondition
  by_cases h : p.matchesAll = true
  · rw [if_pos h, Predicate.matchesAll_iff.mp h]
    rfl
  · rw [if_neg h]
    exact Draft.marks_condition b Draft.empty p

theorem filter_orderTokens (b : Backend) (d : Draft) (terms : List ResolvedTerm) :
    (orderTokens b (d.sortKeys terms).1).filter Token.isMark =
      terms.flatMap (ResolvedTerm.marks b) := by
  rw [← Draft.marks_sortKeys b d terms, ← filter_commaTokens]
  cases (d.sortKeys terms).1 with
  | nil => rfl
  | cons k rest =>
    rw [orderTokens, List.filter_append]
    · rfl
    · intro e
      cases e

theorem filter_windowTokens (b : Backend) (d : Draft) (w : Option Window) :
    (windowTokens b (d.window w).1).filter Token.isMark =
      (List.range' (d.params.length + 1) (Draft.windowValues w).length).map
        (placeholderToken b) := by
  cases w with
  | none => rfl
  | some w =>
    show [placeholderToken b (d.params.length + 1),
      placeholderToken b ((d.params ++ [Value.int (Int64.ofNat w.limit.toNat)]).length + 1)] = _
    rw [List.length_append]
    rfl

/-- Besides words and symbols, the text of a search holds the search's marks. -/
theorem lex_select (b : Backend) (table : String) (p : Predicate) (terms : List ResolvedTerm)
    (w : Option Window) :
    (lex ((select table p terms w).sql b)).filter Token.isMark =
      selectMarks b table p terms w := by
  have hjoins : (joinsTokens 1 (select table p terms w).joins).filter Token.isMark =
      joinMarks (Join.firstUses
        ((p.paths ++ terms.map ResolvedTerm.path).flatMap AttributePath.joins)) := by
    rw [filter_joinsTokens, select_joins]
    exact Draft.marks_after _ _
  have hcondition := filter_conditionTokens b p
  have horder := filter_orderTokens b (Draft.empty.optionalCondition p).2 terms
  have hwindow := filter_windowTokens b
    ((Draft.empty.optionalCondition p).2.sortKeys terms).2 w
  rw [params_before_window] at hwindow
  rw [lex_sql, tokens]
  simp only [List.filter_append]
  rw [hjoins]
  show [Token.name table] ++ joinMarks _ ++
    (conditionTokens b (Draft.empty.optionalCondition p).1).filter Token.isMark ++
    (orderTokens b ((Draft.empty.optionalCondition p).2.sortKeys terms).1).filter Token.isMark ++
    (windowTokens b ((((Draft.empty.optionalCondition p).2.sortKeys terms).2).window w).1).filter
      Token.isMark = _
  rw [hcondition, horder, hwindow]
  rfl

theorem lex_count (b : Backend) (table : String) (p : Predicate) :
    (lex ((count table p).sql b)).filter Token.isMark = countMarks b table p := by
  have hjoins : (joinsTokens 1 (count table p).joins).filter Token.isMark =
      joinMarks (Join.firstUses (p.paths.flatMap AttributePath.joins)) := by
    rw [filter_joinsTokens, count_joins, draft_unsorted]
    exact Draft.marks_after _ _
  have hcondition := filter_conditionTokens b p
  rw [lex_sql, tokens]
  simp only [List.filter_append]
  rw [hjoins]
  show [Token.name table] ++ joinMarks _ ++
    (conditionTokens b (Draft.empty.optionalCondition p).1).filter Token.isMark ++ [] ++ [] = _
  rw [hcondition, List.append_nil, List.append_nil]
  rfl

end Statement
end Sql
end TableSearch
