/-
Statements read back from their texts.

The reader takes the tokens of any text, and knows of statements only what SQL says of their parts.
A column belongs to the table that has its label, among the tables that the text has named so far.
A placeholder stands for the parameter with its number, or, where placeholders have no numbers, for
the next one.  `AND` binds weaker than any test, and what stands in parentheses is one part of a
conjunction.  A text in which a label is not known, or given twice, is no statement.

The tokens of a condition read as the condition, before anything but an `AND`: `parts_condition`.
-/
import TableSearch.Proofs.Sql.Sorting
import TableSearch.Proofs.Sql.Wording
import TableSearch.Proofs.Text.Parts

namespace TableSearch

/-! ## Words and symbols -/

def Comparison.ofSymbol? : String → Option Comparison
  | "=" => some .eq
  | "<>" => some .notEq
  | ">" => some .gt
  | ">=" => some .gte
  | "<" => some .lt
  | "<=" => some .lte
  | _ => none

def Direction.ofWord? : String → Option Direction
  | "ASC" => some .asc
  | "DESC" => some .desc
  | _ => none

namespace Sql

namespace Condition

mutual

def places : Condition → List Nat
  | .compare _ _ param => [param]
  | .like _ _ param _ => [param]
  | .isIn _ params => params
  | .and parts => placesOf parts
  | _ => []

def placesOf : List Condition → List Nat
  | [] => []
  | c :: rest => c.places ++ placesOf rest

end

mutual

/-- No list is empty, and every conjunction has two parts or more. -/
def isProper : Condition → Bool
  | .isIn _ params => !params.isEmpty
  | .and parts => decide (2 ≤ parts.length) && areProper parts
  | _ => true

def areProper : List Condition → Bool
  | [] => true
  | c :: rest => c.isProper && areProper rest

end

end Condition

namespace Reader

def number? (text : String) : Option Nat :=
  if text ≠ "" ∧ text.toList.all Char.isDigit then some (Nat.ofDigitChars 10 text.toList 0)
  else none

/-- The number of the next parameter, and the tokens that are left. -/
abbrev Rest : Type := Nat × List Token

/-- The parameter that a placeholder stands for, where the next one has number `n`. -/
def param? (b : Backend) (n : Nat) (text : String) : Option Nat :=
  match b with
  | .sqlite => if text = "?" then some n else none
  | .postgres => (Text.dropStart? "$" text).bind number?

/-- A column, where the labels are those of the tables by number. -/
def column (labels : List String) : List Token → Option (ColumnRef × List Token)
  | .word label :: .symbol "." :: .name column :: rest =>
      (labels.idxOf? label).map fun table => ({ table, column }, rest)
  | _ => none

/-! ## Conditions -/

def castColumn (labels : List String) : List Token → Option (ColumnRef × List Token)
  | .word "CAST" :: .symbol "(" :: rest =>
      match column labels rest with
      | some (ref, .word "AS" :: .word "TEXT" :: .symbol ")" :: rest) => some (ref, rest)
      | _ => none
  | _ => none

def constant : List Token → Option (Condition × List Token)
  | .word "1" :: .symbol "=" :: .word "1" :: rest => some (.always, rest)
  | .word "1" :: .symbol "=" :: .word "0" :: rest => some (.never, rest)
  | _ => none

def search (b : Backend) (ref : ColumnRef) (cast : Bool) (n : Nat) :
    List Token → Option (Condition × Rest)
  | .word "LIKE" :: .placeholder pattern :: .word "ESCAPE" :: .literal escape :: rest =>
      match param? b n pattern, escape.toList with
      | some param, [c] => some (.like ref cast param c, n + 1, rest)
      | _, _ => none
  | _ => none

/-- The parameters of a list, up to the parenthesis that closes it. -/
def params (b : Backend) (n : Nat) : List Token → Option (List Nat × Rest)
  | .placeholder text :: .symbol ")" :: rest =>
      (param? b n text).map fun param => ([param], n + 1, rest)
  | .placeholder text :: .symbol "," :: rest => do
      let param ← param? b n text
      let (params, n, rest) ← params b (n + 1) rest
      return (param :: params, n, rest)
  | _ => none

def testOf (b : Backend) (ref : ColumnRef) (n : Nat) : List Token → Option (Condition × Rest)
  | .word "IS" :: .word "NULL" :: rest => some (.isNull ref, n, rest)
  | .word "IS" :: .word "NOT" :: .word "NULL" :: rest => some (.isNotNull ref, n, rest)
  | .word "IN" :: .symbol "(" :: rest =>
      (params b n rest).map fun (params, n, rest) => (.isIn ref params, n, rest)
  | .symbol "::" :: .word "TEXT" :: rest =>
      match b with
      | .sqlite => none
      | .postgres => search b ref true n rest
  | .symbol symbol :: .placeholder text :: rest => do
      let op ← Comparison.ofSymbol? symbol
      let param ← param? b n text
      return (.compare ref op param, n + 1, rest)
  | rest => search b ref false n rest

def test (b : Backend) (labels : List String) (n : Nat) (ts : List Token) :
    Option (Condition × Rest) :=
  match column labels ts with
  | some (ref, rest) => testOf b ref n rest
  | none =>
      match castColumn labels ts with
      | some (ref, rest) => search b ref true n rest
      | none => (constant ts).map fun (c, rest) => (c, n, rest)

/-- A single condition stands for itself. -/
def conjunction : List Condition → Condition
  | [c] => c
  | cs => .and cs

mutual

/-- The parts of a conjunction.  Every call reads at least one token, so as many calls as there
are tokens are enough. -/
def parts (b : Backend) (labels : List String) :
    Nat → Nat → List Token → Option (List Condition × Rest)
  | 0, _, _ => none
  | calls + 1, n, ts =>
      match part b labels calls n ts with
      | some (c, n, .word "AND" :: rest) =>
          (parts b labels calls n rest).map fun (cs, n, rest) => (c :: cs, n, rest)
      | some (c, n, rest) => some ([c], n, rest)
      | none => none

/-- A test, or a conjunction in parentheses. -/
def part (b : Backend) (labels : List String) :
    Nat → Nat → List Token → Option (Condition × Rest)
  | 0, _, _ => none
  | calls + 1, n, .symbol "(" :: rest =>
      match parts b labels calls n rest with
      | some (cs, n, .symbol ")" :: rest) => some (conjunction cs, n, rest)
      | _ => none
  | _ + 1, n, ts => test b labels n ts

end

def condition (b : Backend) (labels : List String) :
    List Token → Option (Option Condition × Rest)
  | .word "WHERE" :: rest =>
      (parts b labels (rest.length + 1) 1 rest).map fun (cs, n, rest) =>
        (some (conjunction cs), n, rest)
  | rest => some (none, 1, rest)

/-! ## Orders and windows -/

def nulls (b : Backend) : List Token → Option NullHandling
  | [] => some .native
  | [.word "NULLS", .word place] =>
      match b, place with
      | .postgres, "FIRST" => some .nullsFirst
      | .postgres, "LAST" => some .nullsLast
      | _, _ => none
  | _ => none

def sorting (b : Backend) (ref : ColumnRef) : List Token → Option OrderTerm
  | .word word :: rest => do
      let direction ← Direction.ofWord? word
      let nulls ← nulls b rest
      return .column { ref, direction, nulls }
  | _ => none

def presence (labels : List String) : List Token → Option OrderTerm
  | .word "CASE" :: .word "WHEN" :: rest =>
      match column labels rest with
      | some (ref, [.word "IS", .word "NULL", .word "THEN", .word missing, .word "ELSE",
          .word present, .word "END"]) => do
          return .presence ref (← number? missing) (← number? present)
      | _ => none
  | _ => none

def orderTerm (b : Backend) (labels : List String) (ts : List Token) : Option OrderTerm :=
  match column labels ts with
  | some (ref, rest) => sorting b ref rest
  | none => presence labels ts

/-- The keys that order terms stand for.  A term that only tells missing values from the others
stands before the column that it is about. -/
def sortKeys : List OrderTerm → Option (List SortKey)
  | [] => some []
  | .column k :: rest => (sortKeys rest).map (k :: ·)
  | .presence ref missing present :: .column k :: rest =>
      if ref = k.ref ∧ k.nulls = .native ∧ missing ≠ present then
        (sortKeys rest).map
          ({ k with nulls := if missing < present then .nullsFirst else .nullsLast } :: ·)
      else none
  | _ => none

/-- The order of a statement, if there is one.  Only a window can follow. -/
def order (b : Backend) (labels : List String) :
    List Token → Option (List SortKey × List Token)
  | .word "ORDER" :: .word "BY" :: rest => do
      let clause := rest.takeWhile (· != .word "LIMIT")
      let terms ← (clause.splitOn (.symbol ",")).mapM (orderTerm b labels)
      return (← sortKeys terms, rest.drop clause.length)
  | rest => some ([], rest)

/-- The window of a statement, if there is one, at the end of the text. -/
def window (b : Backend) (n : Nat) : List Token → Option (Option WindowParams)
  | [] => some none
  | [.word "LIMIT", .placeholder limit, .word "OFFSET", .placeholder offset] => do
      return some { limit := ← param? b n limit, offset := ← param? b (n + 1) offset }
  | _ => none

/-! ## Statements -/

/-- What is selected, and the root table with its label. -/
def source : List Token → Option (Result × String × String × List Token)
  | .word selected :: .symbol "." :: .symbol "*" :: .word "FROM" :: .name table :: .word label ::
      rest => if selected = label then some (.rows, table, label, rest) else none
  | .word "COUNT" :: .symbol "(" :: .symbol "*" :: .symbol ")" :: .word "FROM" :: .name table ::
      .word label :: rest => some (.count, table, label, rest)
  | _ => none

/-- The joins after tables with labels, and all labels. -/
def joins (labels : List String) :
    List Token → Option (List JoinClause × List String × List Token)
  | .word "LEFT" :: .word "JOIN" :: .name table :: .word label :: .word "ON" ::
      .word left :: .symbol "." :: .name references :: .symbol "=" ::
      .word right :: .symbol "." :: .name column :: rest => do
      let parent ← labels.idxOf? right
      if left = label ∧ label ∉ labels then
        let (js, labels, rest) ← joins (labels ++ [label]) rest
        return ({ table, references, parent, column } :: js, labels, rest)
      else none
  | rest => some ([], labels, rest)

def statement (b : Backend) (params : List Value) : List Token → Option Statement
  | .word "SELECT" :: rest => do
      let (result, table, label, rest) ← source rest
      let (joins, labels, rest) ← joins [label] rest
      let (condition, n, rest) ← condition b labels rest
      let (order, rest) ← order b labels rest
      let window ← window b n rest
      return { result, table, joins, condition, order, window, params }
  | _ => none

/-! ## Columns and parameters -/

variable {b : Backend} {labels : List String} {n : Nat} {rest : List Token}

theorem number?_toString (n : Nat) : number? (toString n) = some n := by
  have hdigits : (toString n).toList.all Char.isDigit = true := by
    rw [toList_toString, List.all_eq_true]
    exact fun c hc => Nat.isDigit_of_mem_toDigits (by decide) (by decide) hc
  have hne : toString n ≠ "" := by
    intro h
    have hnil := congrArg String.toList h
    rw [toList_toString] at hnil
    exact absurd (congrArg List.length hnil) (Nat.ne_of_gt Nat.length_toDigits_pos)
  rw [number?, if_pos ⟨hne, hdigits⟩, toList_toString]
  exact congrArg some (Nat.ofDigitChars_toDigits (by decide) (by decide))

theorem param?_placeholder (b : Backend) (n : Nat) : param? b n (b.placeholder n) = some n := by
  cases b with
  | sqlite => rfl
  | postgres =>
    show (Text.dropStart? "$" ("$" ++ toString n)).bind number? = some n
    rw [Text.dropStart?_eq_some.mpr rfl, Option.bind_some]
    exact number?_toString n

/-- A label is that of the table with this number. -/
def Names (labels : List String) (r : ColumnRef) : Prop :=
  labels.idxOf? (aliasText r.table) = some r.table

theorem column_tokens {r : ColumnRef} (h : Names labels r) (rest : List Token) :
    column labels (r.tokens ++ rest) = some (r, rest) := by
  show (labels.idxOf? (aliasText r.table)).map _ = _
  rw [h]
  rfl

theorem castColumn_tokens {r : ColumnRef} (h : Names labels r) (rest : List Token) :
    castColumn labels (castTokens .sqlite true r.tokens ++ rest) = some (r, rest) := by
  show castColumn labels (.word "CAST" :: .symbol "(" :: (r.tokens ++
    ([.word "AS", .word "TEXT", .symbol ")"] ++ rest))) = _
  rw [castColumn, column_tokens h]
  rfl

/-! ## Tests -/

theorem search_tokens (ref : ColumnRef) (cast : Bool) (escape : Char) (rest : List Token) :
    search b ref cast n (.word "LIKE" :: placeholderToken b n :: .word "ESCAPE" ::
      .literal (String.singleton escape) :: rest) =
        some (.like ref cast n escape, n + 1, rest) := by
  rw [placeholderToken, search, param?_placeholder, String.toList_singleton]

theorem params_tokens (b : Backend) (n count : Nat) (rest : List Token) :
    params b n (commaTokens ((List.range' n (count + 1)).map fun m => [placeholderToken b m]) ++
      .symbol ")" :: rest) = some (List.range' n (count + 1), n + (count + 1), rest) := by
  induction count generalizing n with
  | zero =>
    show (param? b n (b.placeholder n)).map _ = _
    rw [param?_placeholder]
    rfl
  | succ count ih =>
    have hnext := ih (n + 1)
    rw [List.range'_succ] at hnext ⊢
    rw [List.range'_succ]
    show (param? b n (b.placeholder n)).bind (fun param =>
      (params b (n + 1) (commaTokens (((n + 1) :: List.range' (n + 1 + 1) count).map
        fun m => [placeholderToken b m]) ++ .symbol ")" :: rest)).bind _) = _
    have hcount : n + 1 + (count + 1) = n + (count + 1 + 1) := by omega
    rw [param?_placeholder, hnext, Option.bind_some, Option.bind_some, hcount]
    rfl

theorem test_column {r : ColumnRef} (h : Names labels r) (rest : List Token) :
    test b labels n (r.tokens ++ rest) = testOf b r n rest := by
  rw [test, column_tokens h]

theorem test_castColumn {r : ColumnRef} (h : Names labels r) (rest : List Token) :
    test .sqlite labels n (castTokens .sqlite true r.tokens ++ rest) =
      search .sqlite r true n rest := by
  have hcolumn : column labels (castTokens .sqlite true r.tokens ++ rest) = none := rfl
  rw [test, hcolumn]
  dsimp only
  rw [castColumn_tokens h]

/-- What is not a conjunction is read as it is. -/
theorem test_tokens {c : Condition} (hand : ∀ parts, c ≠ .and parts) (hproper : c.isProper = true)
    (hrefs : ∀ r ∈ c.refs, Names labels r) (hplaces : c.places = List.range' n c.places.length)
    (rest : List Token) :
    test b labels n (c.tokens b ++ rest) = some (c, n + c.places.length, rest) := by
  cases c with
  | always => rfl
  | never => rfl
  | compare ref op param =>
    obtain rfl : param = n := List.head_eq_of_cons_eq hplaces
    refine (test_column (hrefs ref List.mem_cons_self) _).trans ?_
    cases op <;>
    · show (param? b param (b.placeholder param)).bind _ = _
      rw [param?_placeholder]
      rfl
  | like ref cast param escape =>
    obtain rfl : param = n := List.head_eq_of_cons_eq hplaces
    have href := hrefs ref List.mem_cons_self
    have hsearch := fun cast => search_tokens (b := b) (n := param) ref cast escape rest
    cases cast with
    | false => exact (test_column href _).trans (hsearch false)
    | true =>
      cases b with
      | sqlite => exact (test_castColumn href _).trans (hsearch true)
      | postgres => exact (test_column href _).trans (hsearch true)
  | isNull ref => exact test_column (hrefs ref List.mem_cons_self) _
  | isNotNull ref => exact test_column (hrefs ref List.mem_cons_self) _
  | isIn ref list =>
    cases list with
    | nil => cases hproper
    | cons first list =>
      have hparams := params_tokens b n list.length rest
      have hrange : List.range' n (list.length + 1) = first :: list := hplaces.symm
      rw [hrange] at hparams
      refine (test_column (hrefs ref List.mem_cons_self) _).trans ?_
      show (params b n (commaTokens ((first :: list).map fun m => [placeholderToken b m]) ++
        [.symbol ")"] ++ rest)).map _ = _
      rw [List.append_assoc, List.singleton_append, hparams]
      rfl
  | and parts => exact absurd rfl (hand parts)

/-- A test begins with a word. -/
theorem head_tokens (b : Backend) {c : Condition} (hand : ∀ parts, c ≠ .and parts) :
    ∃ text ts, c.tokens b = .word text :: ts := by
  cases c with
  | like ref cast param escape =>
    cases cast with
    | false => exact ⟨_, _, rfl⟩
    | true => cases b <;> exact ⟨_, _, rfl⟩
  | and parts => exact absurd rfl (hand parts)
  | _ => exact ⟨_, _, rfl⟩

end Reader

/-! ## Conjunctions -/

namespace Condition

mutual

/-- How many calls a reader of parts makes within each other. -/
def rank : Condition → Nat
  | .and parts => rankOf parts
  | _ => 0

def rankOf : List Condition → Nat
  | [] => 0
  | c :: rest => max (c.rank + 1) (rankOf rest) + 1

end

theorem calls_of_rankOf {c : Condition} {cs : List Condition} {calls : Nat}
    (h : rankOf (c :: cs) ≤ calls) : ∃ k, calls = k + 1 ∧ c.rank < k ∧ rankOf cs ≤ k := by
  rw [rankOf] at h
  exact ⟨calls - 1, by omega, by omega, by omega⟩

theorem two_le_length_tokens (b : Backend) {c : Condition} (hand : ∀ parts, c ≠ .and parts) :
    2 ≤ (c.tokens b).length := by
  cases c with
  | like ref cast param escape =>
    rw [tokens]
    simp
  | and parts => exact absurd rfl (hand parts)
  | _ => simp [tokens, ColumnRef.tokens]

mutual

/-- Parentheses are tokens of their own. -/
theorem rank_add_two_le (b : Backend) {c : Condition} (h : c.isProper = true) :
    c.rank + 2 ≤ (partTokens c (c.tokens b)).length := by
  cases c with
  | and parts =>
    match parts with
    | [] => cases h
    | [_] => cases h
    | c :: next :: rest =>
      have hall : areProper (c :: next :: rest) = true := h
      have hrank := rankOf_le b hall
      show rankOf (c :: next :: rest) + 2 ≤
        ([Token.symbol "("] ++ partsTokens b (c :: next :: rest) ++ [Token.symbol ")"]).length
      simp only [List.length_append, List.length_singleton]
      omega
  | _ => exact two_le_length_tokens b (by simp)

theorem rankOf_le (b : Backend) {cs : List Condition} (h : areProper cs = true) :
    rankOf cs ≤ (partsTokens b cs).length := by
  match cs with
  | [] => exact Nat.le_refl 0
  | [c] =>
    have hfirst := rank_add_two_le b (Bool.and_eq_true_iff.mp h).1
    rw [rankOf, rankOf, partsTokens]
    omega
  | c :: next :: rest =>
    obtain ⟨hc, hrest⟩ := Bool.and_eq_true_iff.mp h
    have hfirst := rank_add_two_le b hc
    have hothers := rankOf_le b hrest
    rw [rankOf, partsTokens]
    · simp only [List.length_append, List.length_singleton]
      omega
    · intro e
      cases e

end

end Condition

namespace Reader

theorem eq_range'_of_append {ns ms : List Nat}
    (h : ns ++ ms = List.range' n (ns ++ ms).length) :
    ns = List.range' n ns.length ∧ ms = List.range' (n + ns.length) ms.length := by
  rw [List.length_append, ← List.range'_append_1] at h
  exact List.append_inj h List.length_range'.symm

mutual

theorem part_tokens {c : Condition} (hproper : c.isProper = true)
    (hrefs : ∀ r ∈ c.refs, Names labels r) {n : Nat}
    (hplaces : c.places = List.range' n c.places.length) {calls : Nat} (hcalls : c.rank < calls)
    (rest : List Token) :
    part b labels calls n (Condition.partTokens c (c.tokens b) ++ rest) =
      some (c, n + c.places.length, rest) := by
  obtain ⟨calls, rfl⟩ := Nat.exists_eq_add_of_lt hcalls
  have htest : (∀ parts, c ≠ .and parts) →
      part b labels (c.rank + calls + 1) n (c.tokens b ++ rest) =
        some (c, n + c.places.length, rest) := by
    intro hand
    obtain ⟨text, ts, hhead⟩ := head_tokens b hand
    rw [← test_tokens hand hproper hrefs hplaces, hhead]
    rfl
  cases c with
  | and cs =>
    match cs with
    | [] => cases hproper
    | [_] => cases hproper
    | c :: next :: others =>
      have hall : Condition.areProper (c :: next :: others) = true := hproper
      have hparts := parts_tokens (b := b) (List.cons_ne_nil c (next :: others)) hall hrefs hplaces
        (Nat.le_add_right (Condition.rankOf (c :: next :: others)) calls) (.symbol ")" :: rest)
        (by simp)
      show part b labels (Condition.rankOf (c :: next :: others) + calls + 1) n ([.symbol "("] ++
        Condition.partsTokens b (c :: next :: others) ++ [.symbol ")"] ++ rest) = _
      rw [List.append_assoc, List.append_assoc, List.singleton_append, List.singleton_append, part,
        hparts]
      rfl
  | _ => exact htest (by simp)

theorem parts_tokens {cs : List Condition} (hne : cs ≠ []) (hproper : Condition.areProper cs = true)
    (hrefs : ∀ r ∈ Condition.refsOf cs, Names labels r) {n : Nat}
    (hplaces : Condition.placesOf cs = List.range' n (Condition.placesOf cs).length) {calls : Nat}
    (hcalls : Condition.rankOf cs ≤ calls) (rest : List Token)
    (hrest : rest.head? ≠ some (.word "AND")) :
    parts b labels calls n (Condition.partsTokens b cs ++ rest) =
      some (cs, n + (Condition.placesOf cs).length, rest) := by
  match cs with
  | [] => exact absurd rfl hne
  | c :: others =>
    obtain ⟨hc, hothers⟩ := Bool.and_eq_true_iff.mp hproper
    obtain ⟨hcplaces, hoplaces⟩ := eq_range'_of_append hplaces
    obtain ⟨calls, rfl, hcrank, horank⟩ := Condition.calls_of_rankOf hcalls
    have hpart := part_tokens (b := b) hc (fun r hr => hrefs r (List.mem_append_left _ hr)) hcplaces
      hcrank
    cases others with
    | nil =>
      rw [Condition.partsTokens, parts, hpart, Condition.placesOf, Condition.placesOf,
        List.append_nil]
      split
      · next heq =>
        cases heq
        exact absurd rfl hrest
      · next heq =>
        cases heq
        rfl
      · next heq => cases heq
    | cons next others =>
      have hparts := parts_tokens (b := b) (List.cons_ne_nil next others) hothers
        (fun r hr => hrefs r (List.mem_append_right _ hr)) hoplaces horank rest hrest
      have htokens : Condition.partsTokens b (c :: next :: others) ++ rest =
          Condition.partTokens c (c.tokens b) ++
            .word "AND" :: (Condition.partsTokens b (next :: others) ++ rest) := by
        rw [Condition.partsTokens]
        · simp
        · intro e
          cases e
      have hlength : (Condition.placesOf (c :: next :: others)).length =
          c.places.length + (Condition.placesOf (next :: others)).length := List.length_append
      rw [htokens, parts, hpart]
      show (parts b labels calls (n + c.places.length)
        (Condition.partsTokens b (next :: others) ++ rest)).map _ = _
      rw [hparts, hlength, ← Nat.add_assoc]
      rfl

end

theorem parts_condition {c : Condition} (hproper : c.isProper = true)
    (hrefs : ∀ r ∈ c.refs, Names labels r) (hplaces : c.places = List.range' n c.places.length)
    {calls : Nat} (hcalls : (c.tokens b).length ≤ calls) (rest : List Token)
    (hrest : rest.head? ≠ some (.word "AND")) :
    ∃ cs, conjunction cs = c ∧
      parts b labels calls n (c.tokens b ++ rest) = some (cs, n + c.places.length, rest) := by
  have hsingle : (∀ parts, c ≠ .and parts) → ∃ cs, conjunction cs = c ∧
      parts b labels calls n (c.tokens b ++ rest) = some (cs, n + c.places.length, rest) := by
    intro hand
    have hgroup : Condition.partsTokens b [c] = c.tokens b := by
      rw [Condition.partsTokens, Condition.partTokens, if_neg]
      cases c with
      | and parts => exact absurd rfl (hand parts)
      | _ => exact Bool.false_ne_true
    have hone : Condition.areProper [c] = true := by
      rw [Condition.areProper, hproper]
      rfl
    have hlist : Condition.placesOf [c] = c.places := List.append_nil _
    have hrank : Condition.rankOf [c] ≤ calls := by
      have hle := Condition.rankOf_le b hone
      rw [hgroup] at hle
      exact Nat.le_trans hle hcalls
    have hparts := parts_tokens (b := b) (List.cons_ne_nil c []) hone
      (by rwa [Condition.refsOf, Condition.refsOf, List.append_nil]) (by rwa [hlist]) hrank rest
      hrest
    rw [hgroup, hlist] at hparts
    exact ⟨[c], rfl, hparts⟩
  cases c with
  | and cs =>
    match cs with
    | [] => cases hproper
    | [_] => cases hproper
    | c :: next :: others =>
      have hall : Condition.areProper (c :: next :: others) = true := hproper
      exact ⟨c :: next :: others, rfl, parts_tokens (List.cons_ne_nil c (next :: others)) hall hrefs
        hplaces (Nat.le_trans (Condition.rankOf_le b hall) hcalls) rest hrest⟩
  | _ => exact hsingle (by simp)

end Reader

/-- The statement of a text, with these parameters. -/
def Statement.ofText? (b : Backend) (text : String) (params : List Value) : Option Statement :=
  Reader.statement b params (lex text)

end Sql
end TableSearch
