/-
Texts that are cut in two and trimmed, and what they begin with.

A text is cut at the first separator when none stands before it, and at the last one when none
stands after it.  What is trimmed is without white space at its ends, so trimming it again changes
nothing.
-/
import Mathlib.Data.List.Basic
import TableSearch.Text.Blank
import TableSearch.Text.Cut

namespace TableSearch
namespace Text

variable {sep : Char} {s before after : String}

/-! ## Cutting -/

theorem cutFirst_eq_some : cutFirst sep s = some (before, after) ↔
    s.toList = before.toList ++ sep :: after.toList ∧ sep ∉ before.toList := by
  constructor
  · intro h
    obtain ⟨⟨a, b⟩, hcut, hparts⟩ := Option.map_eq_some_iff.mp h
    cases hparts
    rw [String.toList_ofList, String.toList_ofList]
    exact eq_of_cutFirstChars hcut
  · rintro ⟨hlist, hbefore⟩
    rw [cutFirst, hlist, cutFirstChars_append hbefore]
    simp

theorem cutFirst_eq_none : cutFirst sep s = none ↔ sep ∉ s.toList := by
  rw [cutFirst, Option.map_eq_none_iff, cutFirstChars_eq_none]

/-- The last separator is the first one from behind. -/
theorem cutLast_of_not_mem (hlist : s.toList = before.toList ++ sep :: after.toList)
    (hafter : sep ∉ after.toList) : cutLast sep s = some (before, after) := by
  have hreverse : s.toList.reverse = after.toList.reverse ++ sep :: before.toList.reverse := by
    rw [hlist, List.reverse_append, List.reverse_cons, List.append_assoc]
    rfl
  have hmem : sep ∉ after.toList.reverse := by rwa [List.mem_reverse]
  rw [cutLast, cutLastChars, hreverse, cutFirstChars_append hmem]
  simp

theorem cutLast_eq_none : cutLast sep s = none ↔ sep ∉ s.toList := by
  rw [cutLast, cutLastChars, Option.map_eq_none_iff, Option.map_eq_none_iff, cutFirstChars_eq_none,
    List.mem_reverse]

/-! ## Beginnings -/

theorem dropStart?_eq_some {start s rest : String} :
    dropStart? start s = some rest ↔ s = start ++ rest := by
  rw [dropStart?, Option.map_eq_some_iff]
  constructor
  · rintro ⟨cs, hcs, rfl⟩
    rw [List.isPrefixOf?_eq_some_iff_append_eq] at hcs
    refine String.toList_inj.mp ?_
    rw [← hcs, String.toList_append, String.toList_ofList]
  · rintro rfl
    refine ⟨rest.toList, ?_, String.ofList_toList⟩
    rw [List.isPrefixOf?_eq_some_iff_append_eq, String.toList_append]

theorem startsWith_append (start rest : String) : startsWith start (start ++ rest) = true := by
  rw [startsWith, List.isPrefixOf_iff_prefix, String.toList_append]
  exact List.prefix_append _ _

theorem exists_of_startsWith {start s : String} (h : startsWith start s = true) :
    ∃ rest, s = start ++ rest := by
  obtain ⟨cs, hcs⟩ := List.isPrefixOf_iff_prefix.mp h
  refine ⟨String.ofList cs, String.toList_inj.mp ?_⟩
  rw [String.toList_append, String.toList_ofList, hcs]

theorem head?_of_startsWith {start s : String} {c : Char} (h : startsWith start s = true)
    (hstart : start.toList.head? = some c) : s.toList.head? = some c := by
  obtain ⟨rest, hrest⟩ := List.isPrefixOf_iff_prefix.mp h
  rw [← hrest, List.head?_append, hstart]
  rfl

/-- What begins with another character does not begin with this text. -/
theorem startsWith_eq_false {start s : String} {c : Char} (hstart : start.toList.head? = some c)
    (hs : s.toList.head? ≠ some c) : startsWith start s = false :=
  Bool.eq_false_iff.mpr fun h => hs (head?_of_startsWith h hstart)

/-! ## Trimming -/

theorem trimStart_eq_self {cs : List Char} (h : ∀ c ∈ cs.head?, isSpace c = false) :
    trimStart cs = cs := by
  cases cs with
  | nil => rfl
  | cons c rest =>
    have hc : ¬isSpace c = true := by
      rw [h c rfl]
      decide
    exact List.dropWhile_cons_of_neg hc

/-- A text without white space at its ends. -/
theorem trim_eq_self {s : String} (hfirst : ∀ c ∈ s.toList.head?, isSpace c = false)
    (hlast : ∀ c ∈ s.toList.getLast?, isSpace c = false) : trim s = s := by
  rw [trim, trimChars, trimStart_eq_self hfirst, trimEnd,
    trimStart_eq_self (by rwa [List.head?_reverse]), List.reverse_reverse, String.ofList_toList]

theorem not_space_head?_trimStart (cs : List Char) :
    ∀ c ∈ (trimStart cs).head?, isSpace c = false := by
  intro c hc
  have hhead := List.head?_dropWhile_not isSpace cs
  rw [show (cs.dropWhile isSpace).head? = some c from hc] at hhead
  exact hhead

theorem not_space_getLast?_trim (s : String) :
    ∀ c ∈ (trim s).toList.getLast?, isSpace c = false := by
  rw [trim, String.toList_ofList, trimChars, trimEnd, List.getLast?_reverse]
  exact not_space_head?_trimStart _

theorem not_space_head?_trim (s : String) : ∀ c ∈ (trim s).toList.head?, isSpace c = false := by
  intro c hc
  rw [trim, String.toList_ofList, trimChars] at hc
  have hprefix : trimEnd (trimStart s.toList) <+: trimStart s.toList := by
    rw [trimEnd, ← List.reverse_suffix, List.reverse_reverse]
    exact List.dropWhile_suffix isSpace
  -- What is left of the text still begins as it did before its end was trimmed.
  obtain ⟨spaces, hspaces⟩ := hprefix
  refine not_space_head?_trimStart s.toList c ?_
  rw [← hspaces, List.head?_append, hc]
  rfl

theorem trim_trim (s : String) : trim (trim s) = trim s :=
  trim_eq_self (not_space_head?_trim s) (not_space_getLast?_trim s)

theorem isEmpty_trim (s : String) : (trim s).isEmpty = isBlank s := by
  rw [Bool.eq_iff_iff, String.isEmpty_iff, trim_eq_empty]

end Text
end TableSearch
