/-
Parameters and their placeholders.

A text refers to its parameters by placeholders, which one dialect numbers and the other
leaves to their order.  Drafting numbers the parameters, and a statement is not printed in
the order in which it is drafted.  `placeholders_line_up` says that a reader of the text
still meets the parameters in their order, each once.
-/
import TableSearch.Proofs.Sql.Marks

namespace TableSearch
namespace Sql

/-- The placeholders of a text, left to right.  What stands in quotes is none. -/
def placeholders (text : String) : List String :=
  (lex text).filterMap Token.placeholder?

namespace Window

/-- These values are a window's limit and its offset, as far as a parameter can hold it. -/
def Binds : Option Window → List Value → Prop
  | none, values => values = []
  | some w, values =>
      ∃ limit offset : Int64, values = [.int limit, .int offset] ∧
        limit.toInt = w.limit.toNat ∧ offset.toInt = min w.offset.toNat (2 ^ 63 - 1)

theorem binds_windowValues (w : Option Window) : Binds w (Draft.windowValues w) := by
  cases w with
  | none => rfl
  | some w =>
    refine ⟨_, _, rfl, ?_, ?_⟩
    · exact Int64.toInt_ofNat_of_lt (Nat.lt_trans w.limit.toNat_lt (by decide))
    · exact Int64.toInt_ofNat_of_lt (Nat.lt_of_le_of_lt (Nat.min_le_right _ _) (by decide))

end Window

/-! ## Placeholders among the marks -/

theorem filterMap_placeholderTokens (b : Backend) (ns : List Nat) :
    (ns.map (placeholderToken b)).filterMap Token.placeholder? = ns.map b.placeholder := by
  induction ns with
  | nil => rfl
  | cons n rest ih =>
    rw [List.map_cons, List.map_cons, List.filterMap_cons, ih]
    rfl

end Sql

namespace Predicate

open Sql (Token)

mutual

/-- Left to right, the placeholders of a predicate are those of its values. -/
theorem placeholders_marks (b : Backend) (n : Nat) (p : Predicate) :
    (p.marks b n).filterMap Token.placeholder? =
      (List.range' n p.values.length).map b.placeholder := by
  cases p with
  | and parts => exact placeholders_marksOf b n parts
  | compare path op value => rfl
  | like path pattern escape => rfl
  | isNull path => rfl
  | isNotNull path => rfl
  | isIn path values =>
    cases values with
    | nil => rfl
    | cons v rest => exact Sql.filterMap_placeholderTokens b _

theorem placeholders_marksOf (b : Backend) (n : Nat) (ps : List Predicate) :
    (marksOf b n ps).filterMap Token.placeholder? =
      (List.range' n (valuesOf ps).length).map b.placeholder := by
  cases ps with
  | nil => rfl
  | cons p rest =>
    have hrange : List.range' n (valuesOf (p :: rest)).length =
        List.range' n p.values.length ++
          List.range' (n + p.values.length) (valuesOf rest).length := by
      rw [valuesOf, List.length_append, List.range'_append_1]
    rw [marksOf, List.filterMap_append, placeholders_marks b n p, placeholders_marksOf b _ rest,
      hrange, List.map_append]

end

end Predicate

namespace Sql

theorem placeholders_joinMarks (js : List Join) :
    (joinMarks js).filterMap Token.placeholder? = [] := by
  induction js with
  | nil => rfl
  | cons j rest ih => exact ih

theorem placeholders_terms (b : Backend) (terms : List ResolvedTerm) :
    (terms.flatMap (ResolvedTerm.marks b)).filterMap Token.placeholder? = [] := by
  refine List.filterMap_eq_nil_iff.mpr fun t ht => ?_
  obtain ⟨term, _, ht⟩ := List.mem_flatMap.mp ht
  rw [ResolvedTerm.eq_of_mem_marks ht]
  rfl

/-! ## Statements -/

namespace Statement

/-- Every parameter has one placeholder, and the placeholders stand in the order of the
parameters. -/
structure Numbered (s : Statement) : Prop where
  postgres : placeholders (s.sql .postgres) =
    (List.range s.params.length).map fun i => "$" ++ toString (i + 1)
  sqlite : placeholders (s.sql .sqlite) = List.replicate s.params.length "?"

theorem Numbered.of_range {s : Statement} (h : ∀ b, placeholders (s.sql b) =
    (List.range' 1 s.params.length).map b.placeholder) : s.Numbered where
  postgres := by
    rw [h, List.range'_eq_map_range, List.map_map]
    refine List.map_congr_left fun i _ => ?_
    show "$" ++ toString (1 + i) = "$" ++ toString (i + 1)
    rw [Nat.add_comm]
  sqlite := by
    rw [h]
    show (List.range' 1 s.params.length).map (fun _ => "?") = _
    rw [List.map_const', List.length_range']

theorem numbered_select (table : String) (p : Predicate) (terms : List ResolvedTerm)
    (w : Option Window) : (select table p terms w).Numbered := by
  refine .of_range fun b => ?_
  have hrange : List.range' 1 (p.values ++ Draft.windowValues w).length =
      List.range' 1 p.values.length ++
        List.range' (p.values.length + 1) (Draft.windowValues w).length := by
    rw [List.length_append, ← List.range'_append_1, Nat.add_comm 1]
  rw [placeholders, ← Token.filterMap_marks (fun _ => rfl) (fun _ => rfl), lex_select,
    selectMarks, List.filterMap_append, List.filterMap_append, List.filterMap_append,
    List.filterMap_cons, placeholders_joinMarks, Predicate.placeholders_marks,
    placeholders_terms, filterMap_placeholderTokens, select_params, hrange, List.map_append,
    List.append_nil]
  rfl

theorem numbered_count (table : String) (p : Predicate) : (count table p).Numbered := by
  refine .of_range fun b => ?_
  rw [placeholders, ← Token.filterMap_marks (fun _ => rfl) (fun _ => rfl), lex_count,
    countMarks, List.filterMap_append, List.filterMap_cons, placeholders_joinMarks,
    Predicate.placeholders_marks, count_params]
  rfl

/-- Parameters line up with placeholders.  They are the same for both dialects: the values of
the predicate, depth first, and then those of the window, which a count does not have. -/
theorem placeholders_line_up (table : String) (p : Predicate) (terms : List ResolvedTerm)
    (w : Option Window) :
    ((select table p terms w).Numbered ∧
      ∃ bounds, (select table p terms w).params = p.values ++ bounds ∧ Window.Binds w bounds) ∧
    (count table p).Numbered ∧ (count table p).params = p.values :=
  ⟨⟨numbered_select table p terms w, Draft.windowValues w, select_params table p terms w,
      Window.binds_windowValues w⟩,
    numbered_count table p, count_params table p⟩

end Statement
end Sql
end TableSearch
