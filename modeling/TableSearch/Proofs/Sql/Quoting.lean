/-
Schema strings stay in their quotes.

Whatever characters a table or a column name has, it is one name of the statement's text
and nothing else.  The names stand in the order in which they are printed, the escape
characters of patterns are literals of one character, and every other token is one of a
fixed vocabulary: `schema_strings_quoted`.
-/
import TableSearch.Proofs.Sql.Marks

namespace TableSearch

namespace Predicate

mutual

/-- The columns that a predicate's condition names, left to right.  A test against no
values names none. -/
def columnNames : Predicate → List String
  | .and parts => columnNamesOf parts
  | .compare path _ _ => [path.column]
  | .like path _ _ => [path.column]
  | .isNull path => [path.column]
  | .isNotNull path => [path.column]
  | .isIn path items => if items.isEmpty then [] else [path.column]

def columnNamesOf : List Predicate → List String
  | [] => []
  | p :: rest => p.columnNames ++ columnNamesOf rest

end

mutual

def escapes : Predicate → List Char
  | .and parts => escapesOf parts
  | .like _ _ escape => [escape]
  | _ => []

def escapesOf : List Predicate → List Char
  | [] => []
  | p :: rest => p.escapes ++ escapesOf rest

end

end Predicate

namespace Sql

open Token (isMark name? literal?)

def ResolvedTerm.columnNames (b : Backend) (t : ResolvedTerm) : List String :=
  if b = .sqlite ∧ t.nulls ≠ .native then [t.path.column, t.path.column] else [t.path.column]

def joinNames (js : List Join) : List String :=
  js.flatMap fun j => [j.table, j.references, j.column]

/-! ## The vocabulary -/

def keywords : List String :=
  ["SELECT", "COUNT", "FROM", "LEFT", "JOIN", "ON", "WHERE", "AND", "LIKE", "ESCAPE", "IS",
    "NOT", "NULL", "IN", "CAST", "AS", "TEXT", "ORDER", "BY", "CASE", "WHEN", "THEN", "ELSE",
    "END", "ASC", "DESC", "NULLS", "FIRST", "LAST", "LIMIT", "OFFSET", "0", "1"]

def symbols : List String :=
  [".", ",", "(", ")", "*", "=", "<>", ">", ">=", "<", "<=", "::"]

namespace Token

def isVocabulary : Token → Bool
  | .word text => keywords.contains text
  | .symbol text => symbols.contains text
  | _ => false

def Fixed (b : Backend) (t : Token) : Prop :=
  t.isVocabulary = true ∨ (∃ n, t = aliasToken n) ∨ ∃ n, t = placeholderToken b n

def Expected (b : Backend) (t : Token) : Prop :=
  t.Fixed b ∨ (∃ s, t = .name s) ∨ ∃ c, t = .literal (String.singleton c)

end Token

/-- The names of a text are these, its literals these characters, and what else it holds is
fixed. -/
structure Quoted (b : Backend) (text : String) (names : List String) (escapes : List Char) :
    Prop where
  names : (lex text).filterMap name? = names
  literals : (lex text).filterMap literal? = escapes.map String.singleton
  expected : ∀ t ∈ lex text, t.Expected b

variable {b : Backend}

/-! ## Expected tokens -/

theorem expected_of_vocabulary (ts : List Token) (h : ts.all Token.isVocabulary = true) :
    ∀ t ∈ ts, t.Expected b :=
  fun t ht => .inl (.inl (List.all_eq_true.mp h t ht))

theorem expected_alias (n : Nat) : (aliasToken n).Expected b := .inl (.inr (.inl ⟨n, rfl⟩))

theorem expected_placeholder (n : Nat) : (placeholderToken b n).Expected b :=
  .inl (.inr (.inr ⟨n, rfl⟩))

theorem expected_name (s : String) : (Token.name s).Expected b := .inr (.inl ⟨s, rfl⟩)

theorem expected_append {ts us : List Token} (hts : ∀ t ∈ ts, t.Expected b)
    (hus : ∀ t ∈ us, t.Expected b) : ∀ t ∈ ts ++ us, t.Expected b :=
  List.forall_mem_append.mpr ⟨hts, hus⟩

theorem expected_single {t : Token} (h : t.Expected b) : ∀ u ∈ [t], u.Expected b :=
  List.forall_mem_singleton.mpr h

theorem ColumnRef.expected (r : ColumnRef) : ∀ t ∈ r.tokens, t.Expected b :=
  expected_append (expected_single (expected_alias r.table))
    (expected_append (expected_of_vocabulary [.symbol "."] rfl)
      (expected_single (expected_name r.column)))

theorem JoinClause.expected (n : Nat) (j : JoinClause) : ∀ t ∈ j.tokens n, t.Expected b := by
  have hleft := ColumnRef.expected (b := b) { table := n, column := j.references }
  have hright := ColumnRef.expected (b := b) { table := j.parent, column := j.column }
  have hjoin := expected_of_vocabulary (b := b) [.word "LEFT", .word "JOIN"] rfl
  have hon := expected_of_vocabulary (b := b) [.word "ON"] rfl
  have heq := expected_of_vocabulary (b := b) [.symbol "="] rfl
  have htable := expected_append (expected_append hjoin (expected_single (expected_name j.table)))
    (expected_single (expected_alias n))
  exact expected_append (expected_append htable hon) (expected_append hleft
    (expected_append heq hright))

theorem expected_joinsTokens (n : Nat) (js : List JoinClause) :
    ∀ t ∈ joinsTokens n js, t.Expected b := by
  induction js generalizing n with
  | nil => exact List.forall_mem_nil _
  | cons j rest ih => exact expected_append (j.expected n) (ih (n + 1))

theorem expected_commaTokens {tss : List (List Token)} (h : ∀ ts ∈ tss, ∀ t ∈ ts, t.Expected b) :
    ∀ t ∈ commaTokens tss, t.Expected b := by
  induction tss with
  | nil => exact List.forall_mem_nil _
  | cons ts rest ih =>
    obtain ⟨hts, hrest⟩ := List.forall_mem_cons.mp h
    cases rest with
    | nil => exact hts
    | cons next rest =>
      exact expected_append hts (expected_append
        (expected_of_vocabulary [.symbol ","] rfl) (ih hrest))

theorem expected_castTokens (cast : Bool) {ts : List Token} (h : ∀ t ∈ ts, t.Expected b) :
    ∀ t ∈ castTokens b cast ts, t.Expected b := by
  cases cast with
  | false => exact h
  | true =>
    cases b with
    | sqlite =>
      exact expected_append (expected_append
        (expected_of_vocabulary [.word "CAST", .symbol "("] rfl) h)
        (expected_of_vocabulary _ rfl)
    | postgres =>
      exact expected_append (expected_append h
        (expected_of_vocabulary [.symbol "::"] rfl)) (expected_of_vocabulary _ rfl)

namespace Condition

theorem expected_partTokens (c : Condition) {ts : List Token} (h : ∀ t ∈ ts, t.Expected b) :
    ∀ t ∈ partTokens c ts, t.Expected b := by
  unfold partTokens
  by_cases hgroup : c.isGroup = true
  · rw [if_pos hgroup]
    exact expected_append (expected_append (expected_of_vocabulary [.symbol "("] rfl) h)
      (expected_of_vocabulary _ rfl)
  · rw [if_neg hgroup]
    exact h

mutual

theorem expected (c : Condition) : ∀ t ∈ c.tokens b, t.Expected b := by
  cases c with
  | always => exact expected_of_vocabulary _ rfl
  | never => exact expected_of_vocabulary _ rfl
  | compare ref op param =>
    have hop : ∀ t ∈ [Token.symbol op.sql], t.Expected b :=
      expected_of_vocabulary _ (by cases op <;> rfl)
    exact expected_append (expected_append ref.expected hop)
      (expected_single (expected_placeholder param))
  | like ref cast param escape =>
    have htarget := expected_append (expected_append (expected_castTokens cast ref.expected)
      (expected_of_vocabulary [.word "LIKE"] rfl))
      (expected_single (expected_placeholder (b := b) param))
    exact expected_append (expected_append htarget
      (expected_of_vocabulary [.word "ESCAPE"] rfl))
      (expected_single (.inr (.inr ⟨escape, rfl⟩)))
  | isNull ref =>
    exact expected_append (expected_append ref.expected
      (expected_of_vocabulary [.word "IS"] rfl)) (expected_of_vocabulary _ rfl)
  | isNotNull ref =>
    exact expected_append (expected_append ref.expected
      (expected_of_vocabulary [.word "IS", .word "NOT"] rfl)) (expected_of_vocabulary _ rfl)
  | isIn ref params =>
    have hparams : ∀ ts ∈ params.map fun n => [placeholderToken b n], ∀ t ∈ ts, t.Expected b := by
      intro ts hts
      obtain ⟨n, _, rfl⟩ := List.mem_map.mp hts
      exact expected_single (expected_placeholder n)
    exact expected_append (expected_append (expected_append ref.expected
      (expected_of_vocabulary [.word "IN", .symbol "("] rfl))
      (expected_commaTokens hparams)) (expected_of_vocabulary _ rfl)
  | and parts => exact expected_parts parts

theorem expected_parts (cs : List Condition) : ∀ t ∈ partsTokens b cs, t.Expected b := by
  match cs with
  | [] => exact List.forall_mem_nil _
  | [c] => exact expected_partTokens c (expected c)
  | c :: next :: rest =>
    exact expected_append (expected_append (expected_partTokens c (expected c))
      (expected_of_vocabulary [.word "AND"] rfl)) (expected_parts (next :: rest))

end

end Condition

theorem SortKey.expected (k : SortKey) : ∀ t ∈ k.tokens b, t.Expected b := by
  have hdirection : ∀ t ∈ [Token.word k.direction.sql], t.Expected b :=
    expected_of_vocabulary _ (by cases k.direction <;> rfl)
  have hnulls : ∀ last, ∀ t ∈ nullsTokens b k.ref.tokens k.direction last, t.Expected b := by
    intro last
    cases b with
    | sqlite =>
      have hwhen : ∀ t ∈ [Token.word "IS", .word "NULL", .word "THEN",
          .word (if last then "1" else "0"), .word "ELSE", .word (if last then "0" else "1"),
          .word "END", .symbol ","], t.Expected .sqlite :=
        expected_of_vocabulary _ (by cases last <;> rfl)
      have hcase := expected_append (expected_append
        (expected_of_vocabulary (b := .sqlite) [.word "CASE", .word "WHEN"] rfl)
        k.ref.expected) hwhen
      have hall := expected_append (expected_append hcase k.ref.expected) hdirection
      simpa [nullsTokens] using hall
    | postgres =>
      exact expected_append (expected_append k.ref.expected hdirection)
        (expected_of_vocabulary _ (by cases last <;> rfl))
  unfold tokens
  cases k.nulls with
  | native => exact expected_append k.ref.expected hdirection
  | nullsFirst => exact hnulls false
  | nullsLast => exact hnulls true

namespace Statement

theorem expected_conditionTokens (c : Option Condition) :
    ∀ t ∈ conditionTokens b c, t.Expected b := by
  cases c with
  | none => exact List.forall_mem_nil _
  | some c => exact expected_append (expected_of_vocabulary [.word "WHERE"] rfl) c.expected

theorem expected_orderTokens (keys : List SortKey) : ∀ t ∈ orderTokens b keys, t.Expected b := by
  cases keys with
  | nil => exact List.forall_mem_nil _
  | cons k rest =>
    refine expected_append (expected_of_vocabulary [.word "ORDER", .word "BY"] rfl)
      (expected_commaTokens fun ts hts => ?_)
    obtain ⟨key, _, rfl⟩ := List.mem_map.mp hts
    exact key.expected

theorem expected_windowTokens (w : Option WindowParams) :
    ∀ t ∈ windowTokens b w, t.Expected b := by
  cases w with
  | none => exact List.forall_mem_nil _
  | some w =>
    exact expected_append (expected_append (expected_append
      (expected_of_vocabulary [.word "LIMIT"] rfl) (expected_single (expected_placeholder w.limit)))
      (expected_of_vocabulary [.word "OFFSET"] rfl))
      (expected_single (expected_placeholder w.offset))

/-- Every token of a statement is expected. -/
theorem expected (s : Statement) : ∀ t ∈ s.tokens b, t.Expected b := by
  have hresult : ∀ t ∈ resultTokens s.result, t.Expected b := by
    cases s.result with
    | rows =>
      exact expected_append (expected_single (expected_alias 0))
        (expected_of_vocabulary [.symbol ".", .symbol "*"] rfl)
    | count => exact expected_of_vocabulary _ rfl
  have hselect := expected_append (expected_of_vocabulary [.word "SELECT"] rfl) hresult
  have htable := expected_append (expected_append (expected_append hselect
    (expected_of_vocabulary [.word "FROM"] rfl)) (expected_single (expected_name s.table)))
    (expected_single (expected_alias 0))
  exact expected_append (expected_append (expected_append (expected_append htable
    (expected_joinsTokens 1 s.joins)) (expected_conditionTokens s.condition))
    (expected_orderTokens s.order)) (expected_windowTokens s.window)

end Statement

/-! ## Names and literals -/

theorem filterMap_placeholders {α : Type} {f : Token → Option α}
    (h : ∀ s, f (.placeholder s) = none) (b : Backend) (ns : List Nat) :
    (ns.map (placeholderToken b)).filterMap f = [] := by
  refine List.filterMap_eq_nil_iff.mpr fun t ht => ?_
  obtain ⟨n, _, rfl⟩ := List.mem_map.mp ht
  exact h _

end Sql

namespace Predicate

open Sql (Token)

mutual

theorem names_marks (b : Backend) (n : Nat) (p : Predicate) :
    (p.marks b n).filterMap Token.name? = p.columnNames := by
  cases p with
  | and parts => exact names_marksOf b n parts
  | compare path op value => rfl
  | like path pattern escape => rfl
  | isNull path => rfl
  | isNotNull path => rfl
  | isIn path values =>
    cases values with
    | nil => rfl
    | cons v rest =>
      show path.column :: ((List.range' n (v :: rest).length).map
        (Sql.placeholderToken b)).filterMap Token.name? = _
      rw [Sql.filterMap_placeholders fun _ => rfl]
      rfl

theorem names_marksOf (b : Backend) (n : Nat) (ps : List Predicate) :
    (marksOf b n ps).filterMap Token.name? = columnNamesOf ps := by
  cases ps with
  | nil => rfl
  | cons p rest =>
    rw [marksOf, List.filterMap_append, names_marks b n p, names_marksOf b _ rest, columnNamesOf]

end

mutual

theorem literals_marks (b : Backend) (n : Nat) (p : Predicate) :
    (p.marks b n).filterMap Token.literal? = p.escapes.map String.singleton := by
  cases p with
  | and parts => exact literals_marksOf b n parts
  | compare path op value => rfl
  | like path pattern escape => rfl
  | isNull path => rfl
  | isNotNull path => rfl
  | isIn path values =>
    cases values with
    | nil => rfl
    | cons v rest => exact Sql.filterMap_placeholders (fun _ => rfl) b _

theorem literals_marksOf (b : Backend) (n : Nat) (ps : List Predicate) :
    (marksOf b n ps).filterMap Token.literal? = (escapesOf ps).map String.singleton := by
  cases ps with
  | nil => rfl
  | cons p rest =>
    rw [marksOf, List.filterMap_append, literals_marks b n p, literals_marksOf b _ rest, escapesOf,
      List.map_append]

end

end Predicate

namespace Sql

open Token (name? literal?)

theorem names_joinMarks (js : List Join) : (joinMarks js).filterMap name? = joinNames js := by
  induction js with
  | nil => rfl
  | cons j rest ih =>
    show [j.table, j.references, j.column] ++ (joinMarks rest).filterMap name? = _
    rw [ih]
    rfl

theorem literals_joinMarks (js : List Join) : (joinMarks js).filterMap literal? = [] := by
  induction js with
  | nil => rfl
  | cons j rest ih => exact ih

theorem names_terms (b : Backend) (terms : List ResolvedTerm) :
    (terms.flatMap (ResolvedTerm.marks b)).filterMap name? =
      terms.flatMap (ResolvedTerm.columnNames b) := by
  induction terms with
  | nil => rfl
  | cons t rest ih =>
    have hterm : (t.marks b).filterMap name? = t.columnNames b := by
      unfold ResolvedTerm.marks ResolvedTerm.columnNames
      cases b with
      | sqlite => cases t.nulls <;> rfl
      | postgres => cases t.nulls <;> rfl
    rw [List.flatMap_cons, List.filterMap_append, hterm, ih, List.flatMap_cons]

theorem literals_terms (b : Backend) (terms : List ResolvedTerm) :
    (terms.flatMap (ResolvedTerm.marks b)).filterMap literal? = [] := by
  refine List.filterMap_eq_nil_iff.mpr fun t ht => ?_
  obtain ⟨term, _, ht⟩ := List.mem_flatMap.mp ht
  rw [ResolvedTerm.eq_of_mem_marks ht]
  rfl

/-! ## Statements -/

namespace Statement

/-- The names of a search: its table, the tables and columns of its joins by their first uses,
the columns of its condition and those of its order. -/
def names (b : Backend) (table : String) (p : Predicate) (terms : List ResolvedTerm) :
    List String :=
  table :: joinNames (Join.firstUses
      ((p.paths ++ terms.map ResolvedTerm.path).flatMap AttributePath.joins)) ++
    p.columnNames ++ terms.flatMap (ResolvedTerm.columnNames b)

theorem quoted_select (b : Backend) (table : String) (p : Predicate) (terms : List ResolvedTerm)
    (w : Option Window) :
    Quoted b ((select table p terms w).sql b) (names b table p terms) p.escapes where
  names := by
    rw [← Token.filterMap_marks (fun _ => rfl) (fun _ => rfl), lex_select, selectMarks,
      List.filterMap_append, List.filterMap_append, List.filterMap_append, List.filterMap_cons,
      names_joinMarks, Predicate.names_marks, names_terms, filterMap_placeholders fun _ => rfl,
      List.append_nil]
    rfl
  literals := by
    rw [← Token.filterMap_marks (fun _ => rfl) (fun _ => rfl), lex_select, selectMarks,
      List.filterMap_append, List.filterMap_append, List.filterMap_append, List.filterMap_cons,
      literals_joinMarks, Predicate.literals_marks, literals_terms,
      filterMap_placeholders fun _ => rfl, List.append_nil, List.append_nil]
    rfl
  expected := by
    rw [lex_sql]
    exact expected _

theorem quoted_count (b : Backend) (table : String) (p : Predicate) :
    Quoted b ((count table p).sql b) (names b table p []) p.escapes where
  names := by
    rw [← Token.filterMap_marks (fun _ => rfl) (fun _ => rfl), lex_count, countMarks,
      List.filterMap_append, List.filterMap_cons, names_joinMarks, Predicate.names_marks, names,
      List.map_nil, List.append_nil, List.flatMap_nil, List.append_nil]
    rfl
  literals := by
    rw [← Token.filterMap_marks (fun _ => rfl) (fun _ => rfl), lex_count, countMarks,
      List.filterMap_append, List.filterMap_cons, literals_joinMarks, Predicate.literals_marks]
    rfl
  expected := by
    rw [lex_sql]
    exact expected _

/-- No name leaves its quotes.  For either statement and either dialect, the names of the text
are the schema's strings in the order of rendering, the literals are the escape characters, and
every other token is of the vocabulary. -/
theorem schema_strings_quoted (b : Backend) (table : String) (p : Predicate)
    (terms : List ResolvedTerm) (w : Option Window) :
    Quoted b ((select table p terms w).sql b) (names b table p terms) p.escapes ∧
      Quoted b ((count table p).sql b) (names b table p []) p.escapes :=
  ⟨quoted_select b table p terms w, quoted_count b table p⟩

end Statement
end Sql
end TableSearch
