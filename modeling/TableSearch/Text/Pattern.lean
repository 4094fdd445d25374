/-
Search patterns.

In a pattern `%` stands for any characters and `_` for one character.  The escape
character makes the character after it stand for itself.  `escapeLike` writes a text
so that it stands for itself.
-/
import TableSearch.Text.Blank
import TableSearch.Text.Cut

namespace TableSearch
namespace Text

def escapeLikeChars (escape : Char) (cs : List Char) : List Char :=
  let doubled := replaceChars escape [escape, escape] cs
  let underscores := replaceChars '_' [escape, '_'] doubled
  replaceChars '%' [escape, '%'] underscores

/-- The text without white space at its ends, with the escape character before itself,
underscores and percent signs. -/
def escapeLike (escape : Char) (s : String) : String :=
  String.ofList (escapeLikeChars escape (trimChars s.toList))

/-- The pattern of the texts that hold `s`. -/
def containsPattern (escape : Char) (s : String) : String :=
  "%" ++ escapeLike escape s ++ "%"

/-! ## Matching -/

/-- Whether characters match a pattern, where `same` says which characters are alike.
A pattern that ends in the escape character matches nothing. -/
def matchesPattern {α : Type} (same : α → α → Bool) (any one escape : α → Bool) :
    List α → List α → Bool
  | [], cs => cs.isEmpty
  | p :: ps, cs =>
      if escape p then
        match ps, cs with
        | q :: qs, c :: rest => same q c && matchesPattern same any one escape qs rest
        | _, _ => false
      else if any p then anyTail (matchesPattern same any one escape ps) cs
      else
        match cs with
        | [] => false
        | c :: rest => (one p || same p c) && matchesPattern same any one escape ps rest
where
  /-- Whether a test holds of some end of a list. -/
  anyTail (test : List α → Bool) : List α → Bool
    | [] => test []
    | c :: rest => test (c :: rest) || anyTail test rest

end Text
end TableSearch
