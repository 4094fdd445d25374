/-
Statements recovered from their texts.

Every part of a statement has tokens that the reader takes for this part, before whatever can follow
it: conditions do, and orders, joins and windows follow here.  `ofText?_sql` puts them together.  It
asks of a statement that tables are joined before they are referred to, that parameters are numbered
left to right, and that parentheses hold two parts or more.
-/
import TableSearch.Proofs.Sql.Reader
import TableSearch.Proofs.Sql.Reference

namespace TableSearch
namespace Sql

open Reader (Names)

variable {b : Backend} {labels : List String}

/-! ## What follows -/

/-- Tokens that begin with one of these words, if with any. -/
def BeginsWith (words : List String) (ts : List Token) : Prop :=
  ∀ t ∈ ts.head?, ∃ text ∈ words, t = .word text

theorem BeginsWith.eq_of_cons {text : String} {t : Token} {ts : List Token}
    (h : BeginsWith [text] (t :: ts)) : t = .word text := by
  obtain ⟨_, htext, ht⟩ := h t rfl
  rw [ht, List.mem_singleton.mp htext]

theorem BeginsWith.head?_ne {words : List String} {ts : List Token} (h : BeginsWith words ts)
    {text : String} (htext : text ∉ words) : ts.head? ≠ some (.word text) := by
  intro hhead
  obtain ⟨_, hmem, he⟩ := h _ hhead
  cases he
  exact htext hmem

theorem BeginsWith.append {words words' : List String} {ts ts' : List Token}
    (h : BeginsWith words ts) (h' : BeginsWith words' ts') :
    BeginsWith (words ++ words') (ts ++ ts') := by
  intro t ht
  cases ts with
  | nil =>
    obtain ⟨text, htext, he⟩ := h' t ht
    exact ⟨text, List.mem_append_right words htext, he⟩
  | cons u ts =>
    obtain ⟨text, htext, he⟩ := h t ht
    exact ⟨text, List.mem_append_left words' htext, he⟩

theorem beginsWith_nil (words : List String) : BeginsWith words [] := nofun

theorem beginsWith_word (text : String) (ts : List Token) :
    BeginsWith [text] (.word text :: ts) := by
  rintro _ ⟨⟩
  exact ⟨text, List.mem_singleton_self _, rfl⟩

theorem beginsWith_conditionTokens (b : Backend) (c : Option Condition) :
    BeginsWith ["WHERE"] (Statement.conditionTokens b c) := by
  cases c with
  | none => exact beginsWith_nil _
  | some c => exact beginsWith_word _ _

theorem beginsWith_orderTokens (b : Backend) (keys : List SortKey) :
    BeginsWith ["ORDER"] (Statement.orderTokens b keys) := by
  cases keys with
  | nil => exact beginsWith_nil _
  | cons k rest => exact beginsWith_word _ _

theorem beginsWith_windowTokens (b : Backend) (w : Option WindowParams) :
    BeginsWith ["LIMIT"] (Statement.windowTokens b w) := by
  cases w with
  | none => exact beginsWith_nil _
  | some w => exact beginsWith_word _ _

/-! ## Orders -/

namespace OrderTerm

def placeTokens : NullHandling → List Token
  | .native => []
  | .nullsFirst => [.word "NULLS", .word "FIRST"]
  | .nullsLast => [.word "NULLS", .word "LAST"]

def tokens : OrderTerm → List Token
  | .presence ref missing present =>
      [.word "CASE", .word "WHEN"] ++ ref.tokens ++
        [.word "IS", .word "NULL", .word "THEN", .word (toString missing), .word "ELSE",
          .word (toString present), .word "END"]
  | .column k => k.ref.tokens ++ .word k.direction.sql :: placeTokens k.nulls

theorem tokens_ofKey (b : Backend) (k : SortKey) :
    commaTokens ((ofKey b k).map tokens) = k.tokens b := by
  obtain ⟨ref, d, nulls⟩ := k
  cases b <;> cases nulls <;> rfl

theorem map_tokens_ne_nil (b : Backend) (k : SortKey) (rest : List SortKey) :
    ((k :: rest).flatMap (ofKey b)).map tokens ≠ [] := by
  rw [List.flatMap_cons, List.map_append]
  exact List.append_ne_nil_of_left_ne_nil (mt List.map_eq_nil_iff.mp (ofKey_ne_nil b k)) _

/-- No term holds a comma, or the word that begins a window. -/
theorem ne_of_mem_tokens {t : OrderTerm} {token : Token} (h : token ∈ t.tokens) :
    token ≠ .symbol "," ∧ token ≠ .word "LIMIT" := by
  have halias : ∀ n, aliasText n ≠ "LIMIT" := by
    intro n e
    have hhead := congrArg (fun s => s.toList.head?) e
    simp [aliasText] at hhead
  have hnumber : ∀ n : Nat, n.repr ≠ "LIMIT" := by
    intro n e
    have hread : Reader.number? n.repr = some n := Reader.number?_toString n
    have hnone : Reader.number? "LIMIT" = none := by decide
    rw [e, hnone] at hread
    cases hread
  have hall : t.tokens.all (fun u => u != .symbol "," && u != .word "LIMIT") = true := by
    cases t with
    | presence ref missing present =>
      simp [tokens, ColumnRef.tokens, aliasToken, halias, hnumber]
    | column k =>
      obtain ⟨ref, d, nulls⟩ := k
      cases d <;> cases nulls <;>
        simp [tokens, placeTokens, ColumnRef.tokens, aliasToken, halias, Direction.sql]
  have htoken := List.all_eq_true.mp hall token h
  rwa [Bool.and_eq_true, bne_iff_ne, bne_iff_ne] at htoken

end OrderTerm

theorem commaTokens_append {tss uss : List (List Token)} (hts : tss ≠ []) (hus : uss ≠ []) :
    commaTokens (tss ++ uss) = commaTokens tss ++ .symbol "," :: commaTokens uss := by
  induction tss with
  | nil => exact absurd rfl hts
  | cons ts rest ih =>
    cases rest with
    | nil =>
      obtain ⟨us, uss, rfl⟩ := List.exists_cons_of_ne_nil hus
      rfl
    | cons next rest =>
      show ts ++ .symbol "," :: commaTokens (next :: rest ++ uss) = _
      rw [ih (List.cons_ne_nil next rest)]
      show _ = ts ++ .symbol "," :: commaTokens (next :: rest) ++ _
      rw [List.append_assoc, List.cons_append]

theorem commaTokens_eq_intercalate (tss : List (List Token)) :
    commaTokens tss = [Token.symbol ","].intercalate tss := by
  induction tss with
  | nil => rfl
  | cons ts rest ih =>
    cases rest with
    | nil => exact List.intercalate_singleton.symm
    | cons next rest =>
      rw [List.intercalate_cons_cons, ← ih, List.append_assoc]
      rfl

theorem mem_commaTokens {tss : List (List Token)} {t : Token} (h : t ∈ commaTokens tss) :
    t = .symbol "," ∨ ∃ ts ∈ tss, t ∈ ts := by
  induction tss with
  | nil => cases h
  | cons ts rest ih =>
    cases rest with
    | nil => exact .inr ⟨ts, List.mem_singleton_self ts, h⟩
    | cons next rest =>
      rcases List.mem_append.mp h with h | h
      · exact .inr ⟨ts, List.mem_cons_self, h⟩
      · rcases List.mem_cons.mp h with rfl | h
        · exact .inl rfl
        · exact (ih h).imp_right fun ⟨us, hus, hmem⟩ => ⟨us, List.mem_cons_of_mem ts hus, hmem⟩

/-- The terms of some keys are what is printed. -/
theorem commaTokens_ofKeys (b : Backend) (keys : List SortKey) :
    commaTokens (keys.map (SortKey.tokens b)) =
      commaTokens ((keys.flatMap (OrderTerm.ofKey b)).map OrderTerm.tokens) := by
  induction keys with
  | nil => rfl
  | cons k rest ih =>
    cases rest with
    | nil => simpa [commaTokens] using (OrderTerm.tokens_ofKey b k).symm
    | cons next rest =>
      have hfirst : (OrderTerm.ofKey b k).map OrderTerm.tokens ≠ [] :=
        mt List.map_eq_nil_iff.mp (OrderTerm.ofKey_ne_nil b k)
      rw [List.flatMap_cons, List.map_append,
        commaTokens_append hfirst (OrderTerm.map_tokens_ne_nil b next rest), ← ih,
        OrderTerm.tokens_ofKey]
      rfl

theorem splitOn_keys (b : Backend) (k : SortKey) (rest : List SortKey) :
    (commaTokens ((k :: rest).map (SortKey.tokens b))).splitOn (.symbol ",") =
      ((k :: rest).flatMap (OrderTerm.ofKey b)).map OrderTerm.tokens := by
  rw [commaTokens_ofKeys, commaTokens_eq_intercalate]
  refine List.splitOn_intercalate _ (fun ts hts hmem => ?_) (OrderTerm.map_tokens_ne_nil b k rest)
  obtain ⟨t, _, rfl⟩ := List.mem_map.mp hts
  exact (OrderTerm.ne_of_mem_tokens hmem).1 rfl

theorem ne_limit_of_mem_keys {keys : List SortKey} {t : Token}
    (h : t ∈ commaTokens (keys.map (SortKey.tokens b))) : t ≠ .word "LIMIT" := by
  rw [commaTokens_ofKeys] at h
  rcases mem_commaTokens h with rfl | ⟨ts, hts, h⟩
  · exact nofun
  · obtain ⟨term, _, rfl⟩ := List.mem_map.mp hts
    exact (OrderTerm.ne_of_mem_tokens h).2

namespace Reader

theorem ofWord?_sql (d : Direction) : Direction.ofWord? d.sql = some d := by
  cases d <;> rfl

theorem orderTerm_column {k : SortKey} (h : Names labels k.ref)
    (hnulls : nulls b (OrderTerm.placeTokens k.nulls) = some k.nulls) :
    orderTerm b labels (OrderTerm.column k).tokens = some (.column k) := by
  rw [OrderTerm.tokens, orderTerm, column_tokens h]
  show (Direction.ofWord? k.direction.sql).bind _ = _
  rw [ofWord?_sql, Option.bind_some, hnulls]
  rfl

theorem orderTerm_presence {r : ColumnRef} (h : Names labels r) (missing present : Nat) :
    orderTerm b labels (OrderTerm.presence r missing present).tokens =
      some (.presence r missing present) := by
  show presence labels (.word "CASE" :: .word "WHEN" :: (r.tokens ++
    [.word "IS", .word "NULL", .word "THEN", .word (toString missing), .word "ELSE",
      .word (toString present), .word "END"])) = _
  rw [presence, column_tokens h]
  show (number? (toString missing)).bind _ = _
  rw [number?_toString, Option.bind_some, number?_toString]
  rfl

/-- The words for a place of missing values are read where they are printed. -/
theorem orderTerm_ofKey {k : SortKey} (h : Names labels k.ref) :
    ∀ t ∈ OrderTerm.ofKey b k, orderTerm b labels t.tokens = some t := by
  obtain ⟨ref, d, nulls⟩ := k
  cases b with
  | postgres =>
    intro t ht
    cases List.mem_singleton.mp ht
    exact orderTerm_column h (by cases nulls <;> rfl)
  | sqlite =>
    have hcolumn : ∀ t ∈ [OrderTerm.column ⟨ref, d, .native⟩],
        orderTerm .sqlite labels t.tokens = some t :=
      List.forall_mem_singleton.mpr (orderTerm_column h rfl)
    cases nulls with
    | native => exact hcolumn
    | nullsFirst => exact List.forall_mem_cons.mpr ⟨orderTerm_presence h 0 1, hcolumn⟩
    | nullsLast => exact List.forall_mem_cons.mpr ⟨orderTerm_presence h 1 0, hcolumn⟩

theorem sortKeys_ofKeys (b : Backend) (keys : List SortKey) :
    sortKeys (keys.flatMap (OrderTerm.ofKey b)) = some keys := by
  induction keys with
  | nil => rfl
  | cons k rest ih =>
    obtain ⟨ref, d, nulls⟩ := k
    rw [List.flatMap_cons]
    cases b <;> cases nulls <;>
    · simp only [OrderTerm.ofKey, List.cons_append, List.nil_append, sortKeys, ih]
      rfl

theorem mapM_orderTerm {terms : List OrderTerm}
    (h : ∀ t ∈ terms, orderTerm b labels t.tokens = some t) :
    (terms.map OrderTerm.tokens).mapM (orderTerm b labels) = some terms := by
  induction terms with
  | nil => rfl
  | cons t rest ih =>
    obtain ⟨ht, hrest⟩ := List.forall_mem_cons.mp h
    rw [List.map_cons, List.mapM_cons, ht, ih hrest]
    rfl

theorem takeWhile_clause {ts rest : List Token} (hts : ∀ t ∈ ts, t ≠ .word "LIMIT")
    (hrest : BeginsWith ["LIMIT"] rest) : (ts ++ rest).takeWhile (· != .word "LIMIT") = ts := by
  have hnone : rest.takeWhile (· != .word "LIMIT") = [] := by
    cases rest with
    | nil => rfl
    | cons t rest =>
      obtain rfl := hrest.eq_of_cons
      rfl
  rw [List.takeWhile_append_of_pos fun t ht => bne_iff_ne.mpr (hts t ht), hnone, List.append_nil]

theorem order_tokens {keys : List SortKey} (h : ∀ k ∈ keys, Names labels k.ref) {rest : List Token}
    (hrest : BeginsWith ["LIMIT"] rest) :
    order b labels (Statement.orderTokens b keys ++ rest) = some (keys, rest) := by
  cases keys with
  | nil =>
    cases rest with
    | nil => rfl
    | cons t rest =>
      obtain rfl := hrest.eq_of_cons
      rfl
  | cons k others =>
    have hlimit : ∀ t ∈ commaTokens ((k :: others).map (SortKey.tokens b)), t ≠ .word "LIMIT" :=
      fun _ => ne_limit_of_mem_keys
    have hread : ∀ t ∈ (k :: others).flatMap (OrderTerm.ofKey b),
        orderTerm b labels t.tokens = some t := by
      intro t ht
      obtain ⟨key, hkey, ht⟩ := List.mem_flatMap.mp ht
      exact orderTerm_ofKey (h key hkey) t ht
    show order b labels (.word "ORDER" :: .word "BY" ::
      (commaTokens ((k :: others).map (SortKey.tokens b)) ++ rest)) = _
    rw [order, takeWhile_clause hlimit hrest, splitOn_keys, mapM_orderTerm hread]
    show (sortKeys ((k :: others).flatMap (OrderTerm.ofKey b))).bind _ = _
    rw [sortKeys_ofKeys, Option.bind_some, List.drop_left]
    rfl

/-! ## Joins -/

def aliases (n : Nat) : List String :=
  (List.range n).map aliasText

theorem idxOf?_aliases {i n : Nat} (h : i < n) : (aliases n).idxOf? (aliasText i) = some i := by
  have hlength : (aliases n).length = n := by simp [aliases]
  have hget : ∀ j (hj : j < (aliases n).length), (aliases n)[j] = aliasText j := by
    intro j hj
    simp [aliases]
  refine List.idxOf?_eq_some_iff.mpr ⟨hlength.symm ▸ h, hget i _, fun j hj he => ?_⟩
  rw [hget] at he
  exact Nat.ne_of_lt hj (aliasText_injective he)

theorem names_aliases {r : ColumnRef} {n : Nat} (h : r.table < n) : Names (aliases n) r :=
  idxOf?_aliases h

theorem aliasText_notMem_aliases (n : Nat) : aliasText n ∉ aliases n := by
  intro h
  obtain ⟨i, hi, he⟩ := List.mem_map.mp h
  exact Nat.ne_of_lt (List.mem_range.mp hi) (aliasText_injective he)

theorem aliases_succ (n : Nat) : aliases (n + 1) = aliases n ++ [aliasText n] := by
  rw [aliases, List.range_succ, List.map_append]
  rfl

theorem joins_tokens {n : Nat} {js : List JoinClause}
    (hparents : ∀ i j, js[i]? = some j → j.parent < n + i) {rest : List Token}
    (hrest : rest.head? ≠ some (.word "LEFT")) :
    joins (aliases n) (joinsTokens n js ++ rest) = some (js, aliases (n + js.length), rest) := by
  induction js generalizing n with
  | nil =>
    rw [joinsTokens, List.nil_append, joins]
    · rfl
    · rintro _ _ _ _ _ _ _ rfl
      exact hrest rfl
  | cons j js ih =>
    have hothers := @ih (n + 1) (fun i k hk => by
      have hparent := hparents (i + 1) k hk
      omega)
    have hparent : j.parent < n := hparents 0 j rfl
    have hlabel : aliasText n = aliasText n ∧ aliasText n ∉ aliases n :=
      ⟨rfl, aliasText_notMem_aliases n⟩
    have hlength : n + 1 + js.length = n + (j :: js).length := by
      rw [List.length_cons]
      omega
    show ((aliases n).idxOf? (aliasText j.parent)).bind _ = _
    rw [idxOf?_aliases hparent, Option.bind_some, if_pos hlabel, ← aliases_succ]
    show (joins (aliases (n + 1)) (joinsTokens (n + 1) js ++ rest)).bind _ = _
    rw [hothers, hlength]
    rfl

/-! ## Statements -/

theorem source_tokens (result : Result) (table : String) (rest : List Token) :
    source (Statement.resultTokens result ++ .word "FROM" :: .name table :: aliasToken 0 :: rest) =
      some (result, table, aliasText 0, rest) := by
  cases result with
  | rows =>
    show (if aliasText 0 = aliasText 0 then some (Result.rows, table, aliasText 0, rest)
      else none) = _
    rw [if_pos rfl]
  | count => rfl

end Reader

namespace Statement

def conditionPlaces : Option Condition → List Nat
  | none => []
  | some c => c.places

def windowPlaces : Option WindowParams → List Nat
  | none => []
  | some w => [w.limit, w.offset]

/-- Tables are joined before they are referred to, and parameters are numbered in the order in
which the text refers to them. -/
structure Readable (s : Statement) : Prop where
  parents : ∀ i (j : JoinClause), s.joins[i]? = some j → j.parent ≤ i
  refs : ∀ r ∈ conditionRefs s.condition ++ s.order.map SortKey.ref, r.table ≤ s.joins.length
  proper : ∀ c ∈ s.condition, c.isProper = true
  places : conditionPlaces s.condition ++ windowPlaces s.window =
    List.range' 1 (conditionPlaces s.condition ++ windowPlaces s.window).length

end Statement

namespace Reader

theorem condition_tokens {c : Option Condition} (hproper : ∀ c' ∈ c, c'.isProper = true)
    (hrefs : ∀ r ∈ Statement.conditionRefs c, Names labels r)
    (hplaces : Statement.conditionPlaces c = List.range' 1 (Statement.conditionPlaces c).length)
    {rest : List Token} (hrest : BeginsWith ["ORDER", "LIMIT"] rest) :
    condition b labels (Statement.conditionTokens b c ++ rest) =
      some (c, 1 + (Statement.conditionPlaces c).length, rest) := by
  cases c with
  | none =>
    have hwhere : rest.head? ≠ some (.word "WHERE") := hrest.head?_ne (by decide)
    rw [Statement.conditionTokens, List.nil_append, condition]
    · rfl
    · rintro _ rfl
      exact hwhere rfl
  | some c =>
    have hcalls : (c.tokens b).length ≤ (c.tokens b ++ rest).length + 1 := by
      rw [List.length_append]
      omega
    obtain ⟨cs, hcs, hparts⟩ := parts_condition (hproper c rfl) hrefs hplaces hcalls rest
      (hrest.head?_ne (by decide))
    show (parts b labels ((c.tokens b ++ rest).length + 1) 1 (c.tokens b ++ rest)).map _ = _
    rw [hparts, ← hcs]
    rfl

theorem window_tokens {n : Nat} {w : Option WindowParams}
    (h : Statement.windowPlaces w = List.range' n (Statement.windowPlaces w).length) :
    window b n (Statement.windowTokens b w) = some w := by
  cases w with
  | none => rfl
  | some w =>
    obtain ⟨limit, offset⟩ := w
    have hplaces : [limit, offset] = [n, n + 1] := h
    cases hplaces
    show (param? b n (b.placeholder n)).bind _ = _
    rw [param?_placeholder, Option.bind_some, param?_placeholder]
    rfl

theorem statement_tokens {s : Statement} (h : s.Readable) :
    statement b s.params (s.tokens b) = some s := by
  have htokens : s.tokens b = .word "SELECT" :: (Statement.resultTokens s.result ++ .word "FROM" ::
      .name s.table :: aliasToken 0 :: (joinsTokens 1 s.joins ++
        (Statement.conditionTokens b s.condition ++ (Statement.orderTokens b s.order ++
          Statement.windowTokens b s.window)))) := by
    simp [Statement.tokens]
  have hwindow := beginsWith_windowTokens b s.window
  have horder := (beginsWith_orderTokens b s.order).append hwindow
  have hcondition := (beginsWith_conditionTokens b s.condition).append horder
  have hparents : ∀ i j, s.joins[i]? = some j → j.parent < 1 + i := by
    intro i j hj
    have hle := h.parents i j hj
    omega
  have hnames : ∀ r ∈ Statement.conditionRefs s.condition ++ s.order.map SortKey.ref,
      Names (aliases (1 + s.joins.length)) r := by
    intro r hr
    have hle := h.refs r hr
    exact names_aliases (by omega)
  obtain ⟨hplaces, hbounds⟩ := eq_range'_of_append h.places
  rw [htokens]
  refine Option.bind_eq_some_iff.mpr ⟨_, source_tokens s.result s.table _, ?_⟩
  refine Option.bind_eq_some_iff.mpr
    ⟨_, joins_tokens hparents (hcondition.head?_ne (by decide)), ?_⟩
  refine Option.bind_eq_some_iff.mpr ⟨_, condition_tokens h.proper
    (fun r hr => hnames r (List.mem_append_left _ hr)) hplaces horder, ?_⟩
  refine Option.bind_eq_some_iff.mpr ⟨_, order_tokens
    (fun k hk => hnames k.ref (List.mem_append_right _ (List.mem_map_of_mem hk))) hwindow, ?_⟩
  exact Option.bind_eq_some_iff.mpr ⟨_, window_tokens hbounds, rfl⟩

end Reader

namespace Statement

/-- The text of a statement reads as the statement. -/
theorem ofText?_sql (b : Backend) {s : Statement} (h : s.Readable) :
    ofText? b (s.sql b) s.params = some s := by
  rw [ofText?, lex_sql]
  exact Reader.statement_tokens h

example : ofText? .sqlite "SELECT t0.* FROM \"people\" t0 WHERE t0.\"name\" <> ?" [.text "Ben"] =
    some
      { result := .rows, table := "people", joins := [],
        condition := some (.compare ⟨0, "name"⟩ .notEq 1), order := [], window := none,
        params := [.text "Ben"] } := by
  cbv

end Statement
end Sql
end TableSearch
