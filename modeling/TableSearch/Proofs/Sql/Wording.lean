/-
What the text of a statement reads as.

Every part of a statement has its tokens, and its text spells them: the parts end and begin
where no token runs on.  `lex_sql` says so of a whole statement, for names and literals of
any characters.
-/
import TableSearch.Proofs.Sql.Token
import TableSearch.Sql.Printer

namespace TableSearch
namespace Sql

/-! ## Words and placeholders -/

theorem toList_toString (n : Nat) : (toString n).toList = Nat.toDigits 10 n :=
  String.toList_ofList

theorem isWordChar_toString (n : Nat) : (toString n).toList.all Lexeme.isWordChar = true := by
  rw [toList_toString, List.all_eq_true]
  intro c hc
  have hdigit := Nat.isDigit_of_mem_toDigits (by decide) (by decide) hc
  simp [Lexeme.isWordChar, Char.isAlphanum, hdigit]

theorem aliasText_injective : Function.Injective aliasText := by
  intro m n h
  have htext : toString m = toString n := by simpa [aliasText] using h
  have hdigits : Nat.toDigits 10 m = Nat.toDigits 10 n := by
    rw [← toList_toString, ← toList_toString, htext]
  rw [← Nat.ofDigitChars_toDigits (b := 10) (n := m) (by decide) (by decide), hdigits,
    Nat.ofDigitChars_toDigits (by decide) (by decide)]

def aliasToken (n : Nat) : Token :=
  .word (aliasText n)

theorem spells_aliasText (n : Nat) : Spells (aliasText n) [aliasToken n] := by
  have htext : (aliasText n).toList = 't' :: (toString n).toList := by
    rw [aliasText, String.toList_append]
    rfl
  exact spells_word htext rfl (isWordChar_toString n)

def placeholderToken (b : Backend) (n : Nat) : Token :=
  .placeholder (b.placeholder n)

theorem spells_placeholderToken (b : Backend) (n : Nat) :
    Spells (b.placeholder n) [placeholderToken b n] := by
  cases b with
  | sqlite =>
    have htext : (Backend.sqlite.placeholder n).toList = ['?'] := by
      rw [Backend.placeholder]
      rfl
    exact spells_placeholder htext rfl rfl
  | postgres =>
    have htext : (Backend.postgres.placeholder n).toList = '$' :: (toString n).toList := by
      rw [Backend.placeholder, String.toList_append]
      rfl
    exact spells_placeholder htext rfl (isWordChar_toString n)

/-! ## Columns and joins -/

def ColumnRef.tokens (r : ColumnRef) : List Token :=
  [aliasToken r.table, .symbol ".", .name r.column]

theorem separates_dot : Separates "." [.symbol "."] :=
  ⟨by decide, rfl, fun rest => by cases rest <;> rfl⟩

theorem separates_space : Separates " " [] := ⟨by decide, rfl, fun _ => rfl⟩

theorem ColumnRef.spells (r : ColumnRef) : Spells r.sql r.tokens :=
  ((spells_aliasText r.table).append_separates separates_dot).append_spells
    (spells_quoteIdentifier r.column)

def JoinClause.tokens (n : Nat) (j : JoinClause) : List Token :=
  [.word "LEFT", .word "JOIN", .name j.table, aliasToken n, .word "ON", aliasToken n, .symbol ".",
    .name j.references, .symbol "=", aliasToken j.parent, .symbol ".", .name j.column]

theorem JoinClause.spells (n : Nat) (j : JoinClause) : Spells (j.sql n) (j.tokens n) := by
  have hjoin : Detached "LEFT JOIN " [.word "LEFT", .word "JOIN"] := fun _ => rfl
  have hon : Separates " ON " [.word "ON"] := ⟨by decide, rfl, fun _ => rfl⟩
  have heq : Separates " = " [.symbol "="] := ⟨by decide, rfl, fun _ => rfl⟩
  have htable := (hjoin.append_spells (spells_quoteIdentifier j.table)).append_separates
    separates_space
  have hleft := (((htable.append_spells (spells_aliasText n)).append_separates hon).append_spells
    (spells_aliasText n)).append_separates separates_dot
  have hright := (((hleft.append_spells (spells_quoteIdentifier j.references)).append_separates
    heq).append_spells (spells_aliasText j.parent)).append_separates separates_dot
  exact hright.append_spells (spells_quoteIdentifier j.column)

def joinsTokens (n : Nat) : List JoinClause → List Token
  | [] => []
  | j :: rest => j.tokens n ++ joinsTokens (n + 1) rest

theorem breaks_joinsSql (n : Nat) (js : List JoinClause) :
    breaks (joinsSql n js).toList = true := by
  cases js with
  | nil => rfl
  | cons j rest => simp [joinsSql, breaks, Lexeme.isWordChar]

theorem spells_joinsSql (n : Nat) (js : List JoinClause) :
    Spells (joinsSql n js) (joinsTokens n js) := by
  induction js generalizing n with
  | nil => exact spells_empty
  | cons j rest ih =>
    exact (separates_space.detached.append_spells (j.spells n)).append (ih (n + 1))
      (breaks_joinsSql (n + 1) rest)

/-! ## Lists -/

def commaTokens : List (List Token) → List Token
  | [] => []
  | [ts] => ts
  | ts :: rest => ts ++ .symbol "," :: commaTokens rest

theorem spells_joined {α : Type} {text : α → String} {tokens : α → List Token}
    (h : ∀ a, Spells (text a) (tokens a)) (items : List α) :
    Spells (Text.joined ", " (items.map text)) (commaTokens (items.map tokens)) := by
  have hcomma : Separates ", " [.symbol ","] := ⟨by decide, rfl, fun _ => rfl⟩
  induction items with
  | nil => exact spells_empty
  | cons a rest ih =>
    cases rest with
    | nil =>
      rw [Text.joined, List.map_cons, List.map_nil, String.intercalate_singleton]
      exact h a
    | cons a' rest =>
      have hrest := ((h a).append_separates hcomma).append_spells ih
      rw [List.append_assoc] at hrest
      rw [Text.joined, List.map_cons, List.map_cons, String.intercalate_cons_cons]
      exact hrest

/-! ## Conditions -/

def castTokens (b : Backend) (cast : Bool) (ts : List Token) : List Token :=
  if cast then
    match b with
    | .sqlite => [.word "CAST", .symbol "("] ++ ts ++ [.word "AS", .word "TEXT", .symbol ")"]
    | .postgres => ts ++ [.symbol "::"] ++ [.word "TEXT"]
  else ts

theorem spells_cast (b : Backend) (cast : Bool) {s : String} {ts : List Token} (h : Spells s ts) :
    Spells (if cast then b.castText s else s) (castTokens b cast ts) := by
  cases cast with
  | false => exact h
  | true =>
    cases b with
    | sqlite =>
      have hopen : Detached "CAST(" [.word "CAST", .symbol "("] :=
        fun rest => by cases rest <;> rfl
      have hclose : Separates " AS TEXT)" [.word "AS", .word "TEXT", .symbol ")"] :=
        ⟨by decide, rfl, fun rest => by cases rest <;> rfl⟩
      exact ((hopen.append_spells h).append_separates hclose).spells
    | postgres =>
      have hcolons : Separates "::" [.symbol "::"] :=
        ⟨by decide, rfl, fun rest => by cases rest <;> rfl⟩
      have htext : Spells "TEXT" [.word "TEXT"] := spells_word rfl rfl rfl
      have hcast := (h.append_separates hcolons).append_spells htext
      rw [String.append_assoc] at hcast
      exact hcast

theorem spells_null : Spells "NULL" [.word "NULL"] := spells_word rfl rfl rfl

namespace Condition

/-- The tokens of a part of a conjunction, which may stand in parentheses. -/
def partTokens (c : Condition) (ts : List Token) : List Token :=
  if c.isGroup then [.symbol "("] ++ ts ++ [.symbol ")"] else ts

mutual

def tokens (b : Backend) : Condition → List Token
  | .always => [.word "1", .symbol "=", .word "1"]
  | .never => [.word "1", .symbol "=", .word "0"]
  | .compare ref op param => ref.tokens ++ [.symbol op.sql] ++ [placeholderToken b param]
  | .like ref cast param escape =>
      castTokens b cast ref.tokens ++ [.word "LIKE"] ++ [placeholderToken b param] ++
        [.word "ESCAPE"] ++ [.literal (String.singleton escape)]
  | .isNull ref => ref.tokens ++ [.word "IS"] ++ [.word "NULL"]
  | .isNotNull ref => ref.tokens ++ [.word "IS", .word "NOT"] ++ [.word "NULL"]
  | .isIn ref params =>
      ref.tokens ++ [.word "IN", .symbol "("] ++
        commaTokens (params.map fun n => [placeholderToken b n]) ++ [.symbol ")"]
  | .and parts => partsTokens b parts

def partsTokens (b : Backend) : List Condition → List Token
  | [] => []
  | [c] => partTokens c (tokens b c)
  | c :: rest => partTokens c (tokens b c) ++ [.word "AND"] ++ partsTokens b rest

end

theorem spells_part {b : Backend} {c : Condition} (h : Spells (c.sql b) (c.tokens b)) :
    Spells (partSql b c) (partTokens c (c.tokens b)) := by
  have hopen : Detached "(" [.symbol "("] := fun rest => by cases rest <;> rfl
  have hclose : Separates ")" [.symbol ")"] :=
    ⟨by decide, rfl, fun rest => by cases rest <;> rfl⟩
  unfold partSql partTokens
  by_cases hgroup : c.isGroup = true
  · rw [if_pos hgroup, if_pos hgroup]
    exact ((hopen.append_spells h).append_separates hclose).spells
  · rw [if_neg hgroup, if_neg hgroup]
    exact h

mutual

theorem spells (b : Backend) (c : Condition) : Spells (c.sql b) (c.tokens b) := by
  cases c with
  | always =>
    have hone : Detached "1=" [.word "1", .symbol "="] := fun rest => by cases rest <;> rfl
    rw [sql]
    exact hone.append_spells (spells_word (s := "1") rfl rfl rfl)
  | never =>
    have hone : Detached "1=" [.word "1", .symbol "="] := fun rest => by cases rest <;> rfl
    rw [sql]
    exact hone.append_spells (spells_word (s := "0") rfl rfl rfl)
  | compare ref op param =>
    have hop : Separates (" " ++ op.sql ++ " ") [.symbol op.sql] := by
      cases op <;> exact ⟨by decide, rfl, fun _ => rfl⟩
    have h := (ref.spells.append_separates hop).append_spells (spells_placeholderToken b param)
    rw [← String.append_assoc, ← String.append_assoc] at h
    rw [sql]
    exact h
  | like ref cast param escape =>
    have hlike : Separates " LIKE " [.word "LIKE"] := ⟨by decide, rfl, fun _ => rfl⟩
    have hescape : Separates " ESCAPE " [.word "ESCAPE"] := ⟨by decide, rfl, fun _ => rfl⟩
    have h := ((spells_cast b cast ref.spells).append_separates hlike).append_spells
      (spells_placeholderToken b param)
    rw [sql]
    exact (h.append_separates hescape).append_spells (spells_quoteLiteral _)
  | isNull ref =>
    have his : Separates " IS " [.word "IS"] := ⟨by decide, rfl, fun _ => rfl⟩
    have h := (ref.spells.append_separates his).append_spells spells_null
    rw [String.append_assoc] at h
    rw [sql]
    exact h
  | isNotNull ref =>
    have his : Separates " IS NOT " [.word "IS", .word "NOT"] := ⟨by decide, rfl, fun _ => rfl⟩
    have h := (ref.spells.append_separates his).append_spells spells_null
    rw [String.append_assoc] at h
    rw [sql]
    exact h
  | isIn ref params =>
    have hin : Separates " IN (" [.word "IN", .symbol "("] :=
      ⟨by decide, rfl, fun rest => by cases rest <;> rfl⟩
    have hclose : Separates ")" [.symbol ")"] :=
      ⟨by decide, rfl, fun rest => by cases rest <;> rfl⟩
    have h := (ref.spells.append_separates hin).append_spells
      (spells_joined (spells_placeholderToken b) params)
    rw [sql]
    exact (h.append_separates hclose).spells
  | and parts =>
    rw [sql]
    exact spells_parts b parts

theorem spells_parts (b : Backend) (cs : List Condition) :
    Spells (partsSql b cs) (partsTokens b cs) := by
  match cs with
  | [] =>
    rw [partsSql]
    exact spells_empty
  | [c] =>
    rw [partsSql]
    exact spells_part (spells b c)
  | c :: next :: rest =>
    have hand : Separates " AND " [.word "AND"] := ⟨by decide, rfl, fun _ => rfl⟩
    have h := (spells_part (spells b c)).append_separates hand
    rw [partsSql]
    · exact h.append_spells (spells_parts b (next :: rest))
    · intro e
      cases e

end

end Condition

/-! ## Orders -/

theorem spells_direction (d : Direction) : Spells d.sql [.word d.sql] := by
  cases d with
  | asc =>
    have htext : Direction.asc.sql.toList = ['A', 'S', 'C'] := by
      rw [Direction.sql]
      rfl
    exact spells_word htext rfl rfl
  | desc =>
    have htext : Direction.desc.sql.toList = ['D', 'E', 'S', 'C'] := by
      rw [Direction.sql]
      rfl
    exact spells_word htext rfl rfl

/-- The tokens of a sort key with a place for rows without a value. -/
def nullsTokens (b : Backend) (ts : List Token) (d : Direction) (nullsLast : Bool) :
    List Token :=
  match b with
  | .sqlite =>
      [.word "CASE", .word "WHEN"] ++ ts ++ [.word "IS", .word "NULL", .word "THEN"] ++
        [.word (if nullsLast then "1" else "0")] ++ [.word "ELSE"] ++
        [.word (if nullsLast then "0" else "1")] ++ [.word "END", .symbol ","] ++ ts ++
        [.word d.sql]
  | .postgres =>
      ts ++ [.word d.sql] ++ [.word "NULLS", .word (if nullsLast then "LAST" else "FIRST")]

theorem spells_orderWithNulls (b : Backend) {s : String} {ts : List Token} (h : Spells s ts)
    (d : Direction) (nullsLast : Bool) :
    Spells (b.orderWithNulls s d nullsLast) (nullsTokens b ts d nullsLast) := by
  have hkey := (h.append_separates separates_space).append_spells (spells_direction d)
  rw [List.append_nil] at hkey
  cases b with
  | sqlite =>
    have hcase : Detached "CASE WHEN " [.word "CASE", .word "WHEN"] := fun _ => rfl
    have hthen : Separates " IS NULL THEN " [.word "IS", .word "NULL", .word "THEN"] :=
      ⟨by decide, rfl, fun _ => rfl⟩
    have helse : Separates " ELSE " [.word "ELSE"] := ⟨by decide, rfl, fun _ => rfl⟩
    have hend : Separates " END, " [.word "END", .symbol ","] := ⟨by decide, rfl, fun _ => rfl⟩
    have hdigit : ∀ s : String, s = "0" ∨ s = "1" → Spells s [.word s] := by
      rintro s (rfl | rfl)
      · exact spells_word rfl rfl rfl
      · exact spells_word rfl rfl rfl
    have hfirst := (((((hcase.append_spells h).append_separates hthen).append_spells
      (hdigit (if nullsLast then "1" else "0") (by cases nullsLast <;> simp))).append_separates
      helse).append_spells (hdigit (if nullsLast then "0" else "1")
      (by cases nullsLast <;> simp))).append_separates hend
    have hboth := ((hfirst.append_spells h).append_separates separates_space).append_spells
      (spells_direction d)
    rw [List.append_nil] at hboth
    exact hboth
  | postgres =>
    cases nullsLast with
    | false =>
      have hnulls : Spells " NULLS FIRST" [.word "NULLS", .word "FIRST"] := by
        have hspace : Detached " NULLS " [.word "NULLS"] := fun _ => rfl
        exact hspace.append_spells (spells_word (s := "FIRST") rfl rfl rfl)
      exact hkey.append hnulls rfl
    | true =>
      have hnulls : Spells " NULLS LAST" [.word "NULLS", .word "LAST"] := by
        have hspace : Detached " NULLS " [.word "NULLS"] := fun _ => rfl
        exact hspace.append_spells (spells_word (s := "LAST") rfl rfl rfl)
      exact hkey.append hnulls rfl

def SortKey.tokens (b : Backend) (k : SortKey) : List Token :=
  match k.nulls with
  | .native => k.ref.tokens ++ [.word k.direction.sql]
  | .nullsFirst => nullsTokens b k.ref.tokens k.direction false
  | .nullsLast => nullsTokens b k.ref.tokens k.direction true

theorem SortKey.spells (b : Backend) (k : SortKey) : Spells (k.sql b) (k.tokens b) := by
  unfold sql tokens
  cases k.nulls with
  | native =>
    have hkey := (k.ref.spells.append_separates separates_space).append_spells
      (spells_direction k.direction)
    rw [List.append_nil] at hkey
    exact hkey
  | nullsFirst => exact spells_orderWithNulls b k.ref.spells k.direction false
  | nullsLast => exact spells_orderWithNulls b k.ref.spells k.direction true

/-! ## Statements -/

namespace Statement

def resultTokens : Result → List Token
  | .rows => [aliasToken 0, .symbol ".", .symbol "*"]
  | .count => [.word "COUNT", .symbol "(", .symbol "*", .symbol ")"]

def conditionTokens (b : Backend) : Option Condition → List Token
  | none => []
  | some c => [.word "WHERE"] ++ c.tokens b

def orderTokens (b : Backend) : List SortKey → List Token
  | [] => []
  | keys => [.word "ORDER", .word "BY"] ++ commaTokens (keys.map (SortKey.tokens b))

def windowTokens (b : Backend) : Option WindowParams → List Token
  | none => []
  | some w =>
      [.word "LIMIT"] ++ [placeholderToken b w.limit] ++ [.word "OFFSET"] ++
        [placeholderToken b w.offset]

def tokens (b : Backend) (s : Statement) : List Token :=
  [.word "SELECT"] ++ resultTokens s.result ++ [.word "FROM"] ++ [.name s.table] ++
    [aliasToken 0] ++ joinsTokens 1 s.joins ++ conditionTokens b s.condition ++
    orderTokens b s.order ++ windowTokens b s.window

theorem spells_resultSql (r : Result) : Spells (resultSql r) (resultTokens r) := by
  cases r with
  | rows =>
    have hall : Separates ".*" [.symbol ".", .symbol "*"] :=
      ⟨by decide, rfl, fun rest => by cases rest <;> rfl⟩
    exact ((spells_aliasText 0).append_separates hall).spells
  | count =>
    have hcount : Detached "COUNT(*)" [.word "COUNT", .symbol "(", .symbol "*", .symbol ")"] :=
      fun rest => by cases rest <;> rfl
    exact hcount.spells

theorem spells_conditionSql (b : Backend) (c : Option Condition) :
    Spells (conditionSql b c) (conditionTokens b c) ∧ breaks (conditionSql b c).toList = true := by
  have hwhere : Detached " WHERE " [.word "WHERE"] := fun _ => rfl
  cases c with
  | none => exact ⟨spells_empty, rfl⟩
  | some c =>
    refine ⟨hwhere.append_spells (c.spells b), ?_⟩
    rw [conditionSql, String.toList_append]
    rfl

theorem spells_orderSql (b : Backend) (keys : List SortKey) :
    Spells (orderSql b keys) (orderTokens b keys) ∧ breaks (orderSql b keys).toList = true := by
  have horder : Detached " ORDER BY " [.word "ORDER", .word "BY"] := fun _ => rfl
  cases keys with
  | nil => exact ⟨spells_empty, rfl⟩
  | cons k rest =>
    refine ⟨horder.append_spells (spells_joined (SortKey.spells b) (k :: rest)), ?_⟩
    rw [orderSql, String.toList_append]
    · rfl
    · intro e
      cases e

theorem spells_windowSql (b : Backend) (w : Option WindowParams) :
    Spells (windowSql b w) (windowTokens b w) ∧ breaks (windowSql b w).toList = true := by
  have hlimit : Detached (" " ++ "LIMIT ") [.word "LIMIT"] := fun _ => rfl
  have hoffset : Separates " OFFSET " [.word "OFFSET"] := ⟨by decide, rfl, fun _ => rfl⟩
  cases w with
  | none => exact ⟨spells_empty, rfl⟩
  | some w =>
    have h := ((hlimit.append_spells (spells_placeholderToken b w.limit)).append_separates
      hoffset).append_spells (spells_placeholderToken b w.offset)
    rw [String.append_assoc, String.append_assoc, String.append_assoc] at h
    rw [windowSql, limitOffset, String.append_assoc, String.append_assoc]
    refine ⟨h, ?_⟩
    rw [String.toList_append]
    rfl

/-- The text of a statement reads as the statement's tokens. -/
theorem lex_sql (b : Backend) (s : Statement) : lex (s.sql b) = s.tokens b := by
  have hselect : Detached "SELECT " [.word "SELECT"] := fun _ => rfl
  have hfrom : Separates " FROM " [.word "FROM"] := ⟨by decide, rfl, fun _ => rfl⟩
  have htable := ((hselect.append_spells (spells_resultSql s.result)).append_separates
    hfrom).append_spells (spells_quoteIdentifier s.table)
  have hroot := (htable.append_separates separates_space).append_spells (spells_aliasText 0)
  rw [List.append_nil] at hroot
  obtain ⟨hcondition, hcondition_breaks⟩ := spells_conditionSql b s.condition
  obtain ⟨horder, horder_breaks⟩ := spells_orderSql b s.order
  obtain ⟨hwindow, hwindow_breaks⟩ := spells_windowSql b s.window
  have hjoined := hroot.append (spells_joinsSql 1 s.joins) (breaks_joinsSql 1 s.joins)
  have hall := ((hjoined.append hcondition hcondition_breaks).append horder
    horder_breaks).append hwindow hwindow_breaks
  exact hall.lex_eq

end Statement
end Sql
end TableSearch
