/-
Tables and columns in the text of a statement.

A text gives a label to each table when it names it, and calls columns by the label of their
table.  `references` reads both off the tokens of any text: a name after a word and a point is
a column, and any other name is that of a table, with its label behind it.

Tokens are read three at a time at most, so parts of a text may be read on their own when
the next part does not begin with a point.  `Refers` says what a part refers to, and
`references_sql` what a whole statement does.
-/
import TableSearch.Database.Execution
import TableSearch.Proofs.Sql.Wording

namespace TableSearch
namespace Sql

inductive Reference where
  /-- A table and the label that it gets. -/
  | table (name label : String)
  /-- A column of the table with a label. -/
  | column (label name : String)
deriving DecidableEq, Repr

namespace Reference

def label? : Reference → Option String
  | .table _ label => some label
  | .column .. => none

end Reference

def references : List Token → List Reference
  | .word label :: .symbol "." :: .name name :: rest => .column label name :: references rest
  | .name name :: .word label :: rest => .table name label :: references rest
  | _ :: rest => references rest
  | [] => []

def ColumnRef.reference (r : ColumnRef) : Reference :=
  .column (aliasText r.table) r.column

def joinReferences (n : Nat) : List JoinClause → List Reference
  | [] => []
  | j :: rest =>
      .table j.table (aliasText n) :: .column (aliasText n) j.references ::
        .column (aliasText j.parent) j.column :: joinReferences (n + 1) rest

/-! ## Parts of a text -/

/-- The tokens refer to these, before anything that begins without a point. -/
structure Refers (ts : List Token) (rs : List Reference) : Prop where
  opens : ts.head? ≠ some (.symbol ".")
  reads : ∀ rest : List Token, rest.head? ≠ some (.symbol ".") →
    references (ts ++ rest) = rs ++ references rest

theorem Refers.append {ts us : List Token} {rs ss : List Reference} (h : Refers ts rs)
    (h' : Refers us ss) : Refers (ts ++ us) (rs ++ ss) := by
  have hopens : ∀ {us vs : List Token}, us.head? ≠ some (.symbol ".") →
      vs.head? ≠ some (.symbol ".") → (us ++ vs).head? ≠ some (.symbol ".") := by
    intro us vs hus hvs
    cases us with
    | nil => exact hvs
    | cons u us => exact hus
  constructor
  · exact hopens h.opens h'.opens
  · intro rest hrest
    rw [List.append_assoc, h.reads _ (hopens h'.opens hrest), h'.reads rest hrest,
      List.append_assoc]

theorem Refers.references_eq {ts : List Token} {rs : List Reference} (h : Refers ts rs) :
    references ts = rs := by
  have hall := h.reads [] (by simp)
  rw [List.append_nil] at hall
  rw [hall]
  exact List.append_nil rs

theorem refers_nil : Refers [] [] := ⟨by simp, fun _ _ => rfl⟩

/-- A word without a point behind it is no label. -/
theorem references_word {text : String} {rest : List Token}
    (h : rest.head? ≠ some (.symbol ".")) : references (.word text :: rest) = references rest := by
  cases rest with
  | nil => rfl
  | cons t rest =>
    rw [references]
    · intro label name rest' e
      cases e
      exact fun e => h (by rw [e]; rfl)
    · intro label name rest' e
      cases e

/-- Whether a token refers to nothing, whatever stands next to it but a point. -/
def Token.isPlain : Token → Bool
  | .word _ => true
  | .literal _ => true
  | .placeholder _ => true
  | .symbol text => text != "."
  | _ => false

theorem references_plain {t : Token} {rest : List Token} (ht : t.isPlain = true)
    (h : rest.head? ≠ some (.symbol ".")) : references (t :: rest) = references rest := by
  cases t with
  | word text => exact references_word h
  | literal text => rfl
  | placeholder text => rfl
  | symbol text => rfl
  | name text => cases ht
  | unclosed text => cases ht

theorem opens_plain {t : Token} (ht : t.isPlain = true) : t ≠ .symbol "." := by
  rintro rfl
  cases ht

theorem refers_plain {ts : List Token} (h : ts.all Token.isPlain = true) : Refers ts [] := by
  induction ts with
  | nil => exact refers_nil
  | cons t rest ih =>
    rw [List.all_cons, Bool.and_eq_true] at h
    have hrest := ih h.2
    have hfirst : Refers [t] [] := by
      constructor
      · simpa using opens_plain h.1
      · intro us hus
        exact references_plain h.1 hus
    exact hfirst.append hrest

theorem ColumnRef.refers (r : ColumnRef) : Refers r.tokens [r.reference] where
  opens := by simp [ColumnRef.tokens, aliasToken]
  reads _ _ := rfl

theorem refers_table (name : String) (n : Nat) :
    Refers [.name name, aliasToken n] [.table name (aliasText n)] where
  opens := by simp
  reads _ _ := rfl

theorem refers_commaTokens {α : Type} {tokens : α → List Token} {rs : α → List Reference}
    (h : ∀ a, Refers (tokens a) (rs a)) (items : List α) :
    Refers (commaTokens (items.map tokens)) (items.flatMap rs) := by
  have hcomma : Refers [.symbol ","] [] := refers_plain rfl
  induction items with
  | nil => exact refers_nil
  | cons a rest ih =>
    cases rest with
    | nil =>
      rw [List.flatMap_singleton]
      exact h a
    | cons next rest =>
      have hall := ((h a).append hcomma).append ih
      rw [List.append_nil, List.append_assoc] at hall
      exact hall

theorem refers_castTokens (b : Backend) (cast : Bool) {ts : List Token} {rs : List Reference}
    (h : Refers ts rs) : Refers (castTokens b cast ts) rs := by
  cases cast with
  | false => exact h
  | true =>
    cases b with
    | sqlite =>
      have hopen : Refers [.word "CAST", .symbol "("] [] := refers_plain rfl
      have hclose : Refers [.word "AS", .word "TEXT", .symbol ")"] [] := refers_plain rfl
      have hall := (hopen.append h).append hclose
      rw [List.append_nil] at hall
      exact hall
    | postgres =>
      have hcolons : Refers [.symbol "::"] [] := refers_plain rfl
      have htext : Refers [.word "TEXT"] [] := refers_plain rfl
      have hall := (h.append hcolons).append htext
      rw [List.append_nil, List.append_nil] at hall
      exact hall

/-! ## Joins -/

theorem JoinClause.refers (n : Nat) (j : JoinClause) :
    Refers (j.tokens n) (joinReferences n [j]) := by
  have hjoin : Refers [.word "LEFT", .word "JOIN"] [] := refers_plain rfl
  have hon : Refers [.word "ON"] [] := refers_plain rfl
  have heq : Refers [.symbol "="] [] := refers_plain rfl
  have hleft := ColumnRef.refers { table := n, column := j.references }
  have hright := ColumnRef.refers { table := j.parent, column := j.column }
  exact (((hjoin.append (refers_table j.table n)).append hon).append hleft).append
    (heq.append hright)

theorem refers_joinsTokens (n : Nat) (js : List JoinClause) :
    Refers (joinsTokens n js) (joinReferences n js) := by
  induction js generalizing n with
  | nil => exact refers_nil
  | cons j rest ih => exact (j.refers n).append (ih (n + 1))

/-! ## Conditions -/

namespace Condition

theorem refers_partTokens (c : Condition) {ts : List Token} {rs : List Reference}
    (h : Refers ts rs) : Refers (partTokens c ts) rs := by
  have hopen : Refers [.symbol "("] [] := refers_plain rfl
  have hclose : Refers [.symbol ")"] [] := refers_plain rfl
  unfold partTokens
  by_cases hgroup : c.isGroup = true
  · have hall := (hopen.append h).append hclose
    rw [List.append_nil] at hall
    rw [if_pos hgroup]
    exact hall
  · rw [if_neg hgroup]
    exact h

mutual

theorem refers (b : Backend) (c : Condition) :
    Refers (c.tokens b) (c.refs.map ColumnRef.reference) := by
  cases c with
  | always => exact refers_plain rfl
  | never => exact refers_plain rfl
  | compare ref op param =>
    have hrest : Refers ([.symbol op.sql] ++ [placeholderToken b param]) [] :=
      refers_plain (by cases op <;> rfl)
    have hall := ref.refers.append hrest
    rw [← List.append_assoc] at hall
    exact hall
  | like ref cast param escape =>
    have hlike : Refers ([.word "LIKE"] ++ [placeholderToken b param]) [] := refers_plain rfl
    have hescape : Refers ([.word "ESCAPE"] ++ [.literal (String.singleton escape)]) [] :=
      refers_plain rfl
    have hall := ((refers_castTokens b cast ref.refers).append hlike).append hescape
    rw [← List.append_assoc, ← List.append_assoc] at hall
    exact hall
  | isNull ref =>
    have hnull : Refers ([.word "IS"] ++ [.word "NULL"]) [] := refers_plain rfl
    exact ref.refers.append hnull
  | isNotNull ref =>
    have hnull : Refers ([.word "IS", .word "NOT"] ++ [.word "NULL"]) [] := refers_plain rfl
    exact ref.refers.append hnull
  | isIn ref params =>
    have hin : Refers [.word "IN", .symbol "("] [] := refers_plain rfl
    have hclose : Refers [.symbol ")"] [] := refers_plain rfl
    have hparams : Refers (commaTokens (params.map fun n => [placeholderToken b n]))
        (params.flatMap fun _ => []) := refers_commaTokens (fun _ => refers_plain rfl) params
    rw [List.flatMap_eq_nil_iff.mpr fun _ _ => rfl] at hparams
    exact ((ref.refers.append hin).append hparams).append hclose
  | and parts => exact refers_parts b parts

theorem refers_parts (b : Backend) (cs : List Condition) :
    Refers (partsTokens b cs) ((refsOf cs).map ColumnRef.reference) := by
  match cs with
  | [] => exact refers_nil
  | [c] =>
    have hpart := refers_partTokens c (refers b c)
    rw [partsTokens, refsOf, refsOf, List.append_nil]
    exact hpart
  | c :: next :: rest =>
    have hand : Refers [.word "AND"] [] := refers_plain rfl
    have hall := ((refers_partTokens c (refers b c)).append hand).append
      (refers_parts b (next :: rest))
    rw [List.append_nil, ← List.map_append] at hall
    exact hall

end

end Condition

/-! ## Orders -/

/-- The columns of a sort key, as often as the text names them.  Where the words for missing
values may be missing, a key that places them names its column twice. -/
def SortKey.refs (b : Backend) (k : SortKey) : List ColumnRef :=
  if b = .sqlite ∧ k.nulls ≠ .native then [k.ref, k.ref] else [k.ref]

theorem refers_nullsTokens (b : Backend) {ts : List Token} {rs : List Reference}
    (h : Refers ts rs) (d : Direction) (last : Bool) :
    Refers (nullsTokens b ts d last) (if b = .sqlite then rs ++ rs else rs) := by
  have hdirection : Refers [.word d.sql] [] := refers_plain rfl
  cases b with
  | sqlite =>
    have hcase : Refers [.word "CASE", .word "WHEN"] [] := refers_plain rfl
    have hwhen : Refers ([.word "IS", .word "NULL", .word "THEN"] ++
        [.word (if last then "1" else "0")] ++ [.word "ELSE"] ++
        [.word (if last then "0" else "1")] ++ [.word "END", .symbol ","]) [] := refers_plain rfl
    have hall := (((hcase.append h).append hwhen).append h).append hdirection
    simpa [nullsTokens] using hall
  | postgres =>
    have hnulls : Refers [.word "NULLS", .word (if last then "LAST" else "FIRST")] [] :=
      refers_plain rfl
    have hall := (h.append hdirection).append hnulls
    simpa [nullsTokens] using hall

theorem SortKey.refers (b : Backend) (k : SortKey) :
    Refers (k.tokens b) ((k.refs b).map ColumnRef.reference) := by
  have hdirection : Refers [.word k.direction.sql] [] := refers_plain rfl
  unfold SortKey.tokens SortKey.refs
  cases hnulls : k.nulls with
  | native =>
    have hall := k.ref.refers.append hdirection
    simpa [hnulls] using hall
  | nullsFirst =>
    have hall := refers_nullsTokens b k.ref.refers k.direction false
    cases b <;> simpa [hnulls] using hall
  | nullsLast =>
    have hall := refers_nullsTokens b k.ref.refers k.direction true
    cases b <;> simpa [hnulls] using hall

/-! ## Statements -/

namespace Statement

theorem refers_resultTokens (r : Result) : Refers (resultTokens r) [] := by
  cases r with
  | rows => exact ⟨by simp [resultTokens, aliasToken], fun _ _ => rfl⟩
  | count => exact refers_plain rfl

def conditionRefs (c : Option Condition) : List ColumnRef :=
  match c with
  | some c => c.refs
  | none => []

theorem refers_conditionTokens (b : Backend) (c : Option Condition) :
    Refers (conditionTokens b c) ((conditionRefs c).map ColumnRef.reference) := by
  have hwhere : Refers [.word "WHERE"] [] := refers_plain rfl
  cases c with
  | none => exact refers_nil
  | some c => exact hwhere.append (c.refers b)

theorem refers_orderTokens (b : Backend) (keys : List SortKey) :
    Refers (orderTokens b keys) ((keys.flatMap (SortKey.refs b)).map ColumnRef.reference) := by
  have horder : Refers [.word "ORDER", .word "BY"] [] := refers_plain rfl
  cases keys with
  | nil => exact refers_nil
  | cons k rest =>
    have hkeys := refers_commaTokens (SortKey.refers b) (k :: rest)
    rw [← List.map_flatMap] at hkeys
    exact horder.append hkeys

theorem refers_windowTokens (b : Backend) (w : Option WindowParams) :
    Refers (windowTokens b w) [] := by
  cases w with
  | none => exact refers_nil
  | some w => exact refers_plain rfl

/-- The text of a statement refers to its tables, each join with its two columns, and then to
the columns of its condition and its order. -/
theorem references_sql (b : Backend) (s : Statement) :
    references (lex (s.sql b)) = .table s.table (aliasText 0) :: (joinReferences 1 s.joins ++
      (conditionRefs s.condition ++ s.order.flatMap (SortKey.refs b)).map
        ColumnRef.reference) := by
  have hselect : Refers [.word "SELECT"] [] := refers_plain rfl
  have hfrom : Refers [.word "FROM"] [] := refers_plain rfl
  have hhead := (hselect.append (refers_resultTokens s.result)).append hfrom
  have htables := (hhead.append (refers_table s.table 0)).append (refers_joinsTokens 1 s.joins)
  have hcolumns := (htables.append (refers_conditionTokens b s.condition)).append
    (refers_orderTokens b s.order)
  have hall := hcolumns.append (refers_windowTokens b s.window)
  have htokens := hall.references_eq
  rw [lex_sql]
  simpa [tokens] using htokens

end Statement
end Sql
end TableSearch
