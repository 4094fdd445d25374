/-
Sort keys as each backend is told of them.

A sort key asks for rows without a value before or after all others.  One backend has words for it;
the other is sent two terms, a number that tells these rows from the others and then the column.
`OrderTerm` has both kinds of terms with their texts and their meanings, and a list of keys means
the same in the terms of either backend, whatever a backend makes of missing values by itself:
`nulls_ordered_alike`.  Rows sorted by one backend and rows sorted by the other are the same, place
by place, up to ties.
-/
import TableSearch.Database.Execution
import TableSearch.Proofs.Database.Ordering
import TableSearch.Sql.Printer

namespace TableSearch
namespace Sql

inductive OrderTerm where
  /-- A number for rows without a value and one for the others, in ascending order. -/
  | presence (ref : ColumnRef) (missing present : Nat)
  | column (key : SortKey)
deriving DecidableEq

namespace OrderTerm

/-! ## Texts -/

def nullsWords : NullHandling → String
  | .native => ""
  | .nullsFirst => " NULLS FIRST"
  | .nullsLast => " NULLS LAST"

def sql : OrderTerm → String
  | .presence ref missing present =>
      "CASE WHEN " ++ ref.sql ++ " IS NULL THEN " ++ toString missing ++ " ELSE " ++
        toString present ++ " END"
  | .column k => k.ref.sql ++ " " ++ k.direction.sql ++ nullsWords k.nulls

def clause : List OrderTerm → String
  | [] => ""
  | terms => " ORDER BY " ++ Text.joined ", " (terms.map sql)

/-- What a backend is told of a sort key. -/
def ofKey (b : Backend) (k : SortKey) : List OrderTerm :=
  match b, k.nulls with
  | .postgres, _ => [.column k]
  | .sqlite, .native => [.column k]
  | .sqlite, .nullsFirst => [.presence k.ref 0 1, .column { k with nulls := .native }]
  | .sqlite, .nullsLast => [.presence k.ref 1 0, .column { k with nulls := .native }]

/-! ## Meanings -/

def order (m : Meaning) (tables : List Table) (a b : Tuple) : OrderTerm → Ordering
  | .presence ref missing present =>
      compare (if (ref.cell tables a).isNull then missing else present)
        (if (ref.cell tables b).isNull then missing else present)
  | .column k => k.order m (k.ref.operand tables a) (k.ref.operand tables b)

/-- Two tuples by terms, the first that tells them apart. -/
def orderAll (m : Meaning) (tables : List Table) (terms : List OrderTerm) (a b : Tuple) :
    Ordering :=
  terms.foldr (fun t rest => (t.order m tables a b).then rest) .eq

/-- No term tells two tuples apart. -/
def Tied (m : Meaning) (tables : List Table) (terms : List OrderTerm) (a b : Tuple) : Prop :=
  ∀ t ∈ terms, t.order m tables a b = .eq

def Sorts (m : Meaning) (tables : List Table) (terms : List OrderTerm) (l : List Tuple) : Prop :=
  l.Pairwise fun a b => (orderAll m tables terms a b).isLE = true

/-! ## The terms of keys -/

theorem sql_ofKey (b : Backend) (k : SortKey) :
    Text.joined ", " ((ofKey b k).map sql) = k.sql b := by
  obtain ⟨ref, d, nulls⟩ := k
  have hone : ∀ t : OrderTerm, Text.joined ", " ([t].map sql) = t.sql := fun _ =>
    String.intercalate_singleton
  have htwo : ∀ missing present : Nat, Text.joined ", "
      ([presence ref missing present, column ⟨ref, d, .native⟩].map sql) =
        "CASE WHEN " ++ ref.sql ++ " IS NULL THEN " ++ toString missing ++ " ELSE " ++
          toString present ++ " END, " ++ ref.sql ++ " " ++ d.sql := by
    intro missing present
    have hend : " END, " = " END" ++ ", " := rfl
    rw [Text.joined, List.map_cons, List.map_cons, List.map_nil, String.intercalate_cons_cons,
      String.intercalate_singleton, hend]
    show ("CASE WHEN " ++ ref.sql ++ " IS NULL THEN " ++ toString missing ++ " ELSE " ++
      toString present ++ " END") ++ ", " ++ (ref.sql ++ " " ++ d.sql ++ "") = _
    simp only [String.append_assoc, String.append_empty]
  cases b with
  | postgres =>
    cases nulls with
    | native => exact (hone _).trans String.append_empty
    | nullsFirst => exact hone _
    | nullsLast => exact hone _
  | sqlite =>
    cases nulls with
    | native => exact (hone _).trans String.append_empty
    | nullsFirst => exact htwo 0 1
    | nullsLast => exact htwo 1 0

theorem ofKey_ne_nil (b : Backend) (k : SortKey) : ofKey b k ≠ [] := by
  unfold ofKey
  split <;> exact List.cons_ne_nil _ _

/-- The terms of some keys are what is printed. -/
theorem clause_ofKeys (b : Backend) (keys : List SortKey) :
    clause (keys.flatMap (ofKey b)) = Statement.orderSql b keys := by
  have hjoined : ∀ k rest, Text.joined ", " (((k :: rest).flatMap (ofKey b)).map sql) =
      Text.joined ", " ((k :: rest).map (SortKey.sql b)) := by
    intro k rest
    induction rest generalizing k with
    | nil =>
      rw [List.flatMap_cons, List.flatMap_nil, List.append_nil, sql_ofKey]
      exact String.intercalate_singleton.symm
    | cons next rest ih =>
      have hfirst : (ofKey b k).map sql ≠ [] := mt List.map_eq_nil_iff.mp (ofKey_ne_nil b k)
      have hrest : ((next :: rest).flatMap (ofKey b)).map sql ≠ [] := by
        rw [List.flatMap_cons]
        exact mt List.map_eq_nil_iff.mp (List.append_ne_nil_of_left_ne_nil (ofKey_ne_nil b next) _)
      have hsplit := String.intercalate_append_of_ne_nil (s := ", ") hfirst hrest
      rw [← Text.joined, ← Text.joined, ← Text.joined, sql_ofKey, ih, ← List.map_append,
        ← List.flatMap_cons] at hsplit
      rw [hsplit]
      exact String.intercalate_cons_cons.symm
  cases keys with
  | nil => rfl
  | cons k rest =>
    obtain ⟨t, ts, hterms⟩ := List.exists_cons_of_ne_nil
      (List.append_ne_nil_of_left_ne_nil (ofKey_ne_nil b k) (rest.flatMap (ofKey b)))
    have hclause : clause ((k :: rest).flatMap (ofKey b)) =
        " ORDER BY " ++ Text.joined ", " (((k :: rest).flatMap (ofKey b)).map sql) := by
      rw [List.flatMap_cons, hterms]
      rfl
    rw [hclause, hjoined]
    rfl

/-! ## Placed keys -/

variable {m : Meaning} {tables : List Table}

theorem orderAll_append (terms more : List OrderTerm) (a b : Tuple) :
    orderAll m tables (terms ++ more) a b =
      (orderAll m tables terms a b).then (orderAll m tables more a b) := by
  induction terms with
  | nil => rfl
  | cons t rest ih =>
    show (t.order m tables a b).then (orderAll m tables (rest ++ more) a b) = _
    rw [ih, ← Ordering.then_assoc]
    rfl

theorem orderAll_eq_eq {terms : List OrderTerm} {a b : Tuple} :
    orderAll m tables terms a b = .eq ↔ Tied m tables terms a b := by
  induction terms with
  | nil => exact iff_of_true rfl fun t ht => nomatch ht
  | cons t rest ih =>
    have hcons : Tied m tables (t :: rest) a b ↔
        t.order m tables a b = .eq ∧ Tied m tables rest a b := List.forall_mem_cons
    rw [hcons, ← ih]
    exact Ordering.then_eq_eq

/-- A number that tells missing values from the others, and then the column. -/
theorem orderAll_presence (k : SortKey) {missing present : Nat} (smallest : Bool)
    (hplace : compare missing present = if k.nullsFirst m then .lt else .gt) (x y : Tuple) :
    orderAll (m.withNulls smallest) tables
        [.presence k.ref missing present, .column { k with nulls := .native }] x y =
      k.order m (k.ref.operand tables x) (k.ref.operand tables y) := by
  have hplace' : compare present missing = if k.nullsFirst m then .gt else .lt := by
    rw [← Nat.compare_swap, hplace]
    split <;> rfl
  have hsame : ∀ n : Nat, compare n n = .eq := fun n => Nat.compare_eq_eq.mpr rfl
  show (compare (if (k.ref.cell tables x).isNull then missing else present)
      (if (k.ref.cell tables y).isNull then missing else present)).then
    ((SortKey.order (m.withNulls smallest) { k with nulls := .native }
      (k.ref.operand tables x) (k.ref.operand tables y)).then .eq) = _
  rw [Ordering.then_eq]
  unfold SortKey.order
  rw [ColumnRef.operand, ColumnRef.operand]
  dsimp only
  cases (k.ref.cell tables x).isNull with
  | true =>
    cases (k.ref.cell tables y).isNull with
    | true =>
      show (compare missing missing).then .eq = .eq
      rw [hsame]
      rfl
    | false =>
      show (compare missing present).then _ = _
      rw [hplace]
      cases k.nullsFirst m <;> rfl
  | false =>
    cases (k.ref.cell tables y).isNull with
    | true =>
      show (compare present missing).then _ = _
      rw [hplace']
      cases k.nullsFirst m <;> rfl
    | false =>
      show (compare present present).then _ = _
      rw [hsame]
      rfl

/-- A key with a place for missing values means the same in the terms of either backend. -/
theorem orderAll_ofKey (b : Backend) {k : SortKey} (hplaced : k.nulls ≠ .native) (smallest : Bool)
    (x y : Tuple) : orderAll (m.withNulls smallest) tables (ofKey b k) x y =
      k.order m (k.ref.operand tables x) (k.ref.operand tables y) := by
  obtain ⟨ref, d, nulls⟩ := k
  cases b with
  | postgres =>
    cases nulls with
    | native => exact absurd rfl hplaced
    | nullsFirst => exact Ordering.then_eq
    | nullsLast => exact Ordering.then_eq
  | sqlite =>
    cases nulls with
    | native => exact absurd rfl hplaced
    | nullsFirst => exact orderAll_presence ⟨ref, d, .nullsFirst⟩ smallest rfl x y
    | nullsLast => exact orderAll_presence ⟨ref, d, .nullsLast⟩ smallest rfl x y

theorem orderAll_ofKeys (b : Backend) {keys : List SortKey}
    (hplaced : ∀ k ∈ keys, k.nulls ≠ .native) (smallest : Bool) (x y : Tuple) :
    orderAll (m.withNulls smallest) tables (keys.flatMap (ofKey b)) x y =
      SortKey.orderTuples m tables keys x y := by
  induction keys with
  | nil => rfl
  | cons k rest ih =>
    obtain ⟨hk, hrest⟩ := List.forall_mem_cons.mp hplaced
    rw [List.flatMap_cons, orderAll_append, orderAll_ofKey b hk, ih hrest]
    rfl

end OrderTerm

/-! ## Sorted rows -/

section Ties

variable {α : Type} {cmp : α → α → Ordering} {rows l l' : List α}

def countBefore (cmp : α → α → Ordering) (rows : List α) (x : α) : Nat :=
  rows.countP fun y => cmp y x == .lt

theorem countBefore_mono (h : Std.TransCmp fun a b : { a // a ∈ rows } => cmp a b) {x y : α}
    (hx : x ∈ rows) (hy : y ∈ rows) (hle : (cmp x y).isLE = true) :
    countBefore cmp rows x ≤ countBefore cmp rows y := by
  refine List.countP_mono_left fun z hz hbefore => ?_
  rw [beq_iff_eq] at hbefore ⊢
  exact @Std.TransCmp.lt_of_lt_of_isLE _ _ h ⟨z, hz⟩ ⟨x, hx⟩ ⟨y, hy⟩ hbefore hle

theorem countBefore_lt (h : Std.TransCmp fun a b : { a // a ∈ rows } => cmp a b) {x y : α}
    (hx : x ∈ rows) (hy : y ∈ rows) (hlt : cmp x y = .lt) :
    countBefore cmp rows x < countBefore cmp rows y := by
  have hmono : ∀ z ∈ rows, (cmp z x == .lt) = true → (cmp z y == .lt) = true := by
    intro z hz hbefore
    rw [beq_iff_eq] at hbefore ⊢
    exact @Std.TransCmp.lt_trans _ _ h ⟨z, hz⟩ ⟨x, hx⟩ ⟨y, hy⟩ hbefore hlt
  have hself : cmp x x ≠ .lt := by
    intro hxx
    have hswap : cmp x x = (cmp x x).swap := h.eq_swap (a := ⟨x, hx⟩) (b := ⟨x, hx⟩)
    rw [hxx] at hswap
    exact nomatch hswap
  obtain ⟨before, after, hsplit⟩ := List.append_of_mem hx
  have hfirst := List.countP_mono_left fun z hz =>
    hmono z (hsplit ▸ List.mem_append_left _ hz)
  have hlast := List.countP_mono_left fun z hz =>
    hmono z (hsplit ▸ List.mem_append_right before (List.mem_cons_of_mem x hz))
  unfold countBefore
  rw [hsplit, List.countP_append, List.countP_append,
    List.countP_cons_of_neg (by rwa [beq_iff_eq]), List.countP_cons_of_pos (by rwa [beq_iff_eq])]
  omega

/-- Two sorted lists of the same rows have ties at the same places. -/
theorem forall₂_ties (h : Std.TransCmp fun a b : { a // a ∈ rows } => cmp a b)
    (hl : l.Perm rows) (hl' : l'.Perm rows) (hsorted : l.Pairwise fun a b => (cmp a b).isLE = true)
    (hsorted' : l'.Pairwise fun a b => (cmp a b).isLE = true) :
    List.Forall₂ (fun a b => cmp a b = .eq) l l' := by
  -- what counts of a row is how many come before it; of such numbers there is one sorted list
  have hcounts : ∀ {list : List α}, list.Perm rows →
      (list.Pairwise fun a b => (cmp a b).isLE = true) →
      (list.map (countBefore cmp rows)).Pairwise (· ≤ ·) := by
    intro list hlist hpairwise
    rw [List.pairwise_map]
    exact hpairwise.imp_of_mem fun ha hb =>
      countBefore_mono h (hlist.mem_iff.mp ha) (hlist.mem_iff.mp hb)
  have hsame : l.map (countBefore cmp rows) = l'.map (countBefore cmp rows) :=
    List.Perm.eq_of_pairwise (fun _ _ _ _ => Nat.le_antisymm) (hcounts hl hsorted)
      (hcounts hl' hsorted') ((hl.trans hl'.symm).map _)
  have hlength : l.length = l'.length := (hl.trans hl'.symm).length_eq
  rw [List.forall₂_iff_get]
  refine ⟨hlength, fun i hi hi' => ?_⟩
  rw [List.get_eq_getElem, List.get_eq_getElem]
  have hmem : l[i] ∈ rows := hl.mem_iff.mp (List.getElem_mem hi)
  have hmem' : l'[i] ∈ rows := hl'.mem_iff.mp (List.getElem_mem hi')
  have hcount : countBefore cmp rows l[i] = countBefore cmp rows l'[i] := by
    have hget := congrArg (·[i]?) hsame
    simpa [hi, hi'] using hget
  cases hcmp : cmp l[i] l'[i] with
  | eq => rfl
  | lt => exact absurd hcount (Nat.ne_of_lt (countBefore_lt h hmem hmem' hcmp))
  | gt =>
    have hless : cmp l'[i] l[i] = .lt := by
      have hswap : cmp l'[i] l[i] = (cmp l[i] l'[i]).swap :=
        h.eq_swap (a := ⟨l'[i], hmem'⟩) (b := ⟨l[i], hmem⟩)
      rw [hswap, hcmp]
      rfl
    exact absurd hcount.symm (Nat.ne_of_lt (countBefore_lt h hmem' hmem hless))

end Ties

/-! ## The order of keys -/

namespace SortKey

/-- The values that a key has to order in some rows. -/
def Values (k : SortKey) (tables : List Table) (rows : List Tuple) (x : Operand) : Prop :=
  x.cell.isNull = false ∧ ∃ row ∈ rows, k.ref.operand tables row = x

variable {m : Meaning} {tables : List Table} {rows : List Tuple}

/-- A key orders rows totally, up to ties, when its values are ordered so. -/
theorem transCmp_order {k : SortKey} (h : m.Ranks (k.Values tables rows)) :
    Std.TransCmp fun a b : { a // a ∈ rows } =>
      k.order m (k.ref.operand tables a) (k.ref.operand tables b) := by
  have hvalue : ∀ {row : { row // row ∈ rows }},
      (k.ref.operand tables row).cell.isNull = false →
        k.Values tables rows (k.ref.operand tables row) := fun {row} hrow =>
    ⟨hrow, row, row.2, rfl⟩
  have hdirected : Std.TransCmp fun x y : { x // k.Values tables rows x } =>
      if k.direction.isDescending then m.order y x else m.order x y := by
    cases k.direction.isDescending with
    | true => exact { eq_swap := h.eq_swap, isLE_trans := fun hxy hyz => h.isLE_trans hyz hxy }
    | false => exact h
  refine { eq_swap := fun {a b} => ?_, isLE_trans := fun {a b c} hab hbc => ?_ }
  · unfold order
    cases ha : (k.ref.operand tables a).cell.isNull with
    | true =>
      cases hb : (k.ref.operand tables b).cell.isNull with
      | true => rfl
      | false => cases k.nullsFirst m <;> rfl
    | false =>
      cases hb : (k.ref.operand tables b).cell.isNull with
      | true => cases k.nullsFirst m <;> rfl
      | false => exact hdirected.eq_swap (a := ⟨_, hvalue ha⟩) (b := ⟨_, hvalue hb⟩)
  · unfold order at hab hbc ⊢
    -- a missing value is on one side of all others, so only three that are there are compared
    cases ha : (k.ref.operand tables a).cell.isNull <;>
    cases hb : (k.ref.operand tables b).cell.isNull <;>
    cases hc : (k.ref.operand tables c).cell.isNull <;>
    cases hfirst : k.nullsFirst m <;>
    simp only [ha, hb, hc, hfirst] at hab hbc ⊢ <;>
    first
    | trivial
    | exact @Std.TransCmp.isLE_trans _ _ hdirected ⟨_, hvalue ha⟩ ⟨_, hvalue hb⟩ ⟨_, hvalue hc⟩
        hab hbc

theorem transCmp_orderTuples {keys : List SortKey}
    (h : ∀ k ∈ keys, m.Ranks (k.Values tables rows)) :
    Std.TransCmp fun a b : { a // a ∈ rows } => orderTuples m tables keys a b := by
  induction keys with
  | nil => exact { eq_swap := rfl, isLE_trans := fun _ _ => rfl }
  | cons k rest ih =>
    obtain ⟨hk, hrest⟩ := List.forall_mem_cons.mp h
    have hfirst := transCmp_order hk
    have hthen := ih hrest
    exact inferInstanceAs (Std.TransCmp (compareLex
      (fun a b : { a // a ∈ rows } => k.order m (k.ref.operand tables a) (k.ref.operand tables b))
      fun a b : { a // a ∈ rows } => orderTuples m tables rest a b))

/-- The embedded engine orders the values of every key, when none is a number that is none. -/
theorem ranks_values {k : SortKey} (h : ∀ row ∈ rows, (k.ref.cell tables row).isNaN = false) :
    Meaning.sqlite.Ranks (k.Values tables rows) := by
  refine (Meaning.ranks_sqlite (k.ref.traits tables)).mono ?_
  rintro x ⟨-, row, hrow, rfl⟩
  exact ⟨rfl, h row hrow⟩

end SortKey

namespace OrderTerm

/-- Sort keys with a place for missing values are the same order for both backends: of any two
rows, the terms that one is sent, which takes missing values for the smallest, and the terms that
the other is sent, which takes them for the largest, say what the keys say.  So rows are sorted by
one when they are by the other, and the same rows sorted by both differ only in rows that no term
tells apart. -/
theorem nulls_ordered_alike (m : Meaning) (tables : List Table) {keys : List SortKey}
    (hplaced : ∀ k ∈ keys, k.nulls ≠ .native) :
    (∀ b, clause (keys.flatMap (ofKey b)) = Statement.orderSql b keys) ∧
    (∀ x y,
      orderAll (m.withNulls true) tables (keys.flatMap (ofKey .sqlite)) x y =
        SortKey.orderTuples m tables keys x y ∧
      orderAll (m.withNulls false) tables (keys.flatMap (ofKey .postgres)) x y =
        SortKey.orderTuples m tables keys x y) ∧
    (∀ l, Sorts (m.withNulls true) tables (keys.flatMap (ofKey .sqlite)) l ↔
      Sorts (m.withNulls false) tables (keys.flatMap (ofKey .postgres)) l) ∧
    ∀ rows, (∀ k ∈ keys, m.Ranks (k.Values tables rows)) → ∀ l l', l.Perm rows → l'.Perm rows →
      Sorts (m.withNulls true) tables (keys.flatMap (ofKey .sqlite)) l →
      Sorts (m.withNulls false) tables (keys.flatMap (ofKey .postgres)) l' →
      List.Forall₂ (fun x y =>
        Tied (m.withNulls true) tables (keys.flatMap (ofKey .sqlite)) x y ∧
        Tied (m.withNulls false) tables (keys.flatMap (ofKey .postgres)) x y) l l' := by
  have hsame : ∀ b smallest x y, orderAll (m.withNulls smallest) tables (keys.flatMap (ofKey b)) x y
      = SortKey.orderTuples m tables keys x y := fun b => orderAll_ofKeys b hplaced
  have hsorts : ∀ b smallest l, Sorts (m.withNulls smallest) tables (keys.flatMap (ofKey b)) l ↔
      l.Pairwise fun x y => (SortKey.orderTuples m tables keys x y).isLE = true := by
    intro b smallest l
    simp only [Sorts, hsame]
  refine ⟨fun b => clause_ofKeys b keys, fun x y => ⟨hsame _ _ x y, hsame _ _ x y⟩,
    fun l => (hsorts _ _ l).trans (hsorts _ _ l).symm, ?_⟩
  intro rows hranks l l' hl hl' hsorted hsorted'
  have hties := forall₂_ties (SortKey.transCmp_orderTuples hranks) hl hl'
    ((hsorts _ _ l).mp hsorted) ((hsorts _ _ l').mp hsorted')
  refine hties.imp fun x y htie => ?_
  exact ⟨orderAll_eq_eq.mp ((hsame _ _ x y).trans htie),
    orderAll_eq_eq.mp ((hsame _ _ x y).trans htie)⟩

def scores : Table where
  name := "scores"
  columns := [.declared "id" "INTEGER", .declared "composer" "TEXT", .declared "year" "INTEGER"]
  rows := [
    ⟨1, [.integer 1, .text [66], .integer 1721]⟩,
    ⟨2, [.integer 2, .null, .null]⟩,
    ⟨3, [.integer 3, .text [67], .integer 1830]⟩,
    ⟨4, [.integer 4, .null, .integer 1604]⟩,
    ⟨5, [.integer 5, .text [66], .integer 1721]⟩]

def byComposer : List SortKey :=
  [⟨⟨0, "composer"⟩, .desc, .nullsFirst⟩, ⟨⟨0, "year"⟩, .asc, .nullsLast⟩]

def scoreTuples (numbers : List Int) : List Tuple :=
  numbers.map fun n => [scores.rows.find? fun row => row.number == n]

theorem nulls_ordered_alike_scores :
    (∀ k ∈ byComposer, k.nulls ≠ .native) ∧
    clause (byComposer.flatMap (ofKey .sqlite)) = Statement.orderSql .sqlite byComposer ∧
    List.Forall₂ (fun x y =>
      Tied (Meaning.sqlite.withNulls true) [scores] (byComposer.flatMap (ofKey .sqlite)) x y ∧
      Tied (Meaning.sqlite.withNulls false) [scores] (byComposer.flatMap (ofKey .postgres)) x y)
      (scoreTuples [4, 2, 3, 1, 5]) (scoreTuples [4, 2, 3, 5, 1]) := by
  have hplaced : ∀ k ∈ byComposer, k.nulls ≠ .native := by decide
  have hnumbers : ∀ k ∈ byComposer, ∀ row ∈ scoreTuples [1, 2, 3, 4, 5],
      (k.ref.cell [scores] row).isNaN = false := by decide +kernel
  obtain ⟨hclause, -, -, hsorted⟩ := nulls_ordered_alike .sqlite [scores] hplaced
  exact ⟨hplaced, hclause .sqlite, hsorted (scoreTuples [1, 2, 3, 4, 5])
    (fun k hk => SortKey.ranks_values (hnumbers k hk)) _ _ (by decide +kernel) (by decide +kernel)
    (by unfold Sorts; decide +kernel) (by unfold Sorts; decide +kernel)⟩

end OrderTerm

end Sql
end TableSearch
