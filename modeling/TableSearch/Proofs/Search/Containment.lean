/-
Filters that search for a text.

A search filter asks whether a text occurs in the text of a column, and nothing in the text
that it asks for has a meaning of its own.  The condition that it becomes compares the column,
or its text, with a pattern, and is true exactly where the text occurs:
`searches_literally`.
-/
import TableSearch.Proofs.Database.Searching
import TableSearch.Proofs.Search.Matching
import TableSearch.Sql.Printer

namespace TableSearch

namespace Sql

open Predicate (likeEscape)

namespace Condition

/-- A condition is true of a cell, which has the text `form`, when `s` occurs there without the
white space at its ends. -/
structure Searches (c : Condition) (m : Meaning) (params : List Value)
    (operand : ColumnRef → Operand) (same : Char → Char → Bool) (cell : Cell)
    (form : Option String) (s : String) : Prop where
  literal : c.holds m params operand = .yes ↔
    ∃ t, form = some t ∧ Text.Occurs same (Text.trim s) t
  missing : cell = .null → c.holds m params operand ≠ .yes
  blank : Text.isBlank s = true → cell ≠ .null → c.holds m params operand = .yes

theorem Searches.of_literal {c : Condition} {m : Meaning} {params : List Value}
    {operand : ColumnRef → Operand} {same : Char → Char → Bool} {cell : Cell}
    {form : Option String} {s : String} (hform : form = none ↔ cell = .null)
    (h : c.holds m params operand = .yes ↔
      ∃ t, form = some t ∧ Text.Occurs same (Text.trim s) t) :
    c.Searches m params operand same cell form s := by
  refine ⟨h, fun hcell hyes => ?_, fun hblank hcell => ?_⟩
  · obtain ⟨t, ht, _⟩ := h.mp hyes
    rw [hform.mpr hcell] at ht
    cases ht
  · rw [h, Text.trim_eq_empty.mpr hblank]
    cases hcases : form with
    | none => exact absurd (hform.mp hcases) hcell
    | some t => exact ⟨t, rfl, Text.occurs_empty same t⟩

/-- A condition compares a column, or its text, with a bound pattern, and so searches it for
`s` wherever the backend searches for this pattern as SQL has it. -/
structure Contains (c : Condition) (params : List Value) (ref : ColumnRef) (cast : Bool)
    (s : String) : Prop where
  worded : ∃ n, argument params n = .text (Text.containsPattern likeEscape s) ∧
    ∀ b : Backend, c.sql b = (if cast then b.castText ref.sql else ref.sql) ++ " LIKE " ++
      b.placeholder n ++ " ESCAPE '/'"
  searches : ∀ {m : Meaning} {same : Char → Char → Bool} {operand : ColumnRef → Operand}
    {form : Option String},
    m.LikeAt same cast likeEscape (Text.containsPattern likeEscape s) (operand ref).cell form →
      c.Searches m params operand same (operand ref).cell form s

end Condition

open Condition (argument)

theorem Draft.contains_condition (d : Draft) (path : AttributePath) (s : String)
    {params : List Value}
    (hparams : (d.condition (.like path (Text.containsPattern likeEscape s) likeEscape)).2.params
      <+: params) :
    (d.condition (.like path (Text.containsPattern likeEscape s) likeEscape)).1.Contains params
      (d.column path).1 (path.type != .text) s := by
  have hbound : argument params ((d.column path).2.params.length + 1) =
      .text (Text.containsPattern likeEscape s) := argument_at hparams
  have hescape : " ESCAPE " ++ quoteLiteral (String.singleton likeEscape) = " ESCAPE '/'" := rfl
  have hcondition : (d.condition (.like path (Text.containsPattern likeEscape s) likeEscape)).1 =
      .like (d.column path).1 (path.type != .text) ((d.column path).2.params.length + 1)
        likeEscape := rfl
  rw [hcondition]
  constructor
  · refine ⟨_, hbound, fun b => ?_⟩
    rw [Condition.sql, ← hescape, ← String.append_assoc]
  · intro m same operand form hm
    refine .of_literal hm.missing ?_
    show m.like (path.type != .text) likeEscape (operand (d.column path).1).cell
      (argument params ((d.column path).2.params.length + 1)) = .yes ↔ _
    have hlike : ∀ t, Text.Like same likeEscape (Text.containsPattern likeEscape s).toList
        t.toList ↔ Text.Occurs same (Text.trim s) t :=
      Text.like_containsPattern (by decide) (by decide) s
    rw [hbound, hm.found]
    simp only [hlike]

end Sql

/-! ## Filters -/

namespace Filter

variable {r : Registry} {root : Entity} {f : Filter} {p : Predicate}

/-- A search filter becomes a condition that is true exactly where the text of its value occurs,
without the white space at its ends.  So it is not true of a missing value, and it is true of
every other one when the text is blank. -/
theorem searches_literally (hop : f.operator = .like)
    (h : Predicate.ofFilter r root f = .ok p) :
    ∃ path s, AttributePath.resolve r root f.path = .ok path ∧ f.value.patternText? = some s ∧
      ∀ (d : Sql.Draft) (params : List Value), (d.condition p).2.params <+: params →
        (d.condition p).1.Contains params (d.column path).1 (path.type != .text) s := by
  obtain ⟨path, hpath, h⟩ := Success.bind_eq_ok.mp h
  rw [hop] at h
  obtain ⟨s, hs, _, rfl⟩ := Predicate.containing_eq_ok.mp h
  exact ⟨path, s, hpath, hs, fun d params hparams => d.contains_condition path s hparams⟩

def offer : Entity := (Entity.bare "offer" "offers").withColumn "label" .text

def discounted : Filter := { path := "label", operator := .like, value := .text " 50%_/off " }

def labelled (label : String) : Operand where
  cell := Cell.ofText label
  traits := { affinity := .text, collation := .binary, isRowNumber := false }

theorem searches_literally_discounted :
    ∃ p, Predicate.ofFilter Keyed.empty offer discounted = .ok p ∧
      (Sql.Draft.empty.condition p).1.holds Meaning.sqlite (Sql.Draft.empty.condition p).2.params
        (fun _ => labelled "Now 50%_/OFF!") = .yes := by
  have hmade : (Predicate.ofFilter Keyed.empty offer discounted).isOk = true := by
    decide +kernel
  cases hp : Predicate.ofFilter Keyed.empty offer discounted with
  | error e =>
    rw [hp] at hmade
    cases hmade
  | ok p =>
    refine ⟨p, rfl, ?_⟩
    obtain ⟨path, s, _, hs, hcontains⟩ := searches_literally rfl hp
    cases hs
    have hpattern : Char.ofNat 0 ∉
        (Text.containsPattern Predicate.likeEscape " 50%_/off ").toList := by decide +kernel
    have hlabel : ∀ t, some "Now 50%_/OFF!" = some t → Char.ofNat 0 ∉ t.toList := by
      intro t ht
      cases ht
      decide
    have hlike : Meaning.sqlite.LikeAt Meaning.sameLetter (path.type != .text)
        Predicate.likeEscape (Text.containsPattern Predicate.likeEscape " 50%_/off ")
        (labelled "Now 50%_/OFF!").cell (some "Now 50%_/OFF!") :=
      Meaning.sqlite_likeAt (by decide) _ hpattern rfl hlabel
    have hcondition := hcontains Sql.Draft.empty _ List.prefix_rfl
    have htrimmed : Text.trim " 50%_/off " = "50%_/off" := by decide +kernel
    have hsearches : (Sql.Draft.empty.condition p).1.Searches Meaning.sqlite
        (Sql.Draft.empty.condition p).2.params (fun _ => labelled "Now 50%_/OFF!")
        Meaning.sameLetter (labelled "Now 50%_/OFF!").cell (some "Now 50%_/OFF!")
        " 50%_/off " := hcondition.searches hlike
    rw [hsearches.literal, htrimmed]
    refine ⟨"Now 50%_/OFF!", rfl, "Now ".toList, "50%_/OFF".toList, "!".toList, rfl, ?_⟩
    decide +kernel

end Filter
end TableSearch
