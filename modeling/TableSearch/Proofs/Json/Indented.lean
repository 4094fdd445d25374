/-
The indented form of a JSON tree.

It differs from the compact form by white space between tokens, so it has the same tokens and is
read as the same tree, also with a line end after it: `ofText?_indented`.
-/
import TableSearch.Proofs.Json.Reading

namespace TableSearch
namespace Json

variable {cs : List Char}

namespace Token

theorem all?_space {c : Char} (h : isSpace c = true) : all? (c :: cs) = all? cs := by
  rw [all?, if_pos h]

theorem all?_spaces (n : ℕ) : all? (List.replicate n ' ' ++ cs) = all? cs := by
  induction n with
  | zero => rfl
  | succ n ih => exact (all?_space rfl).trans ih

theorem all?_newline (depth : ℕ) : all? (Node.newline depth ++ cs) = all? cs :=
  (all?_space rfl).trans (all?_spaces _)

end Token

namespace Node

theorem ends_newline (depth : ℕ) : Ends (newline depth ++ cs) :=
  ends_line

mutual

/-- The indented form of a tree has its tokens. -/
theorem all?_indentedChars (n : Node) (depth : ℕ) {rest : List Char}
    (h : Ends rest) :
    Token.all? (n.indentedChars depth ++ rest) = (Token.all? rest).map (n.tokens ++ ·) := by
  match n with
  | .null => exact Token.all?_first rfl
  | .bool b => cases b <;> exact Token.all?_first rfl
  | .int n => exact Token.all?_first (first?_intChars n h)
  | .float x => exact Token.all?_first (first?_floatChars x h)
  | .string s => exact Token.all?_first (Token.first?_quotedChars s rest)
  | .array [] =>
    show Token.all? ('[' :: ']' :: rest) = _
    rw [Token.all?_first (t := .openArray) rfl, Token.all?_first (t := .closeArray) rfl]
    cases Token.all? rest <;> rfl
  | .array (item :: items) =>
    have hchars : (array (item :: items)).indentedChars depth ++ rest =
        '[' :: (indentedItems (depth + 1) (item :: items) ++ (newline depth ++ ']' :: rest)) := by
      simp [indentedChars]
    rw [hchars, Token.all?_first (t := .openArray) rfl,
      all?_indentedItems (item :: items) (depth + 1) (ends_newline depth), Token.all?_newline,
      Token.all?_first (t := .closeArray) rfl]
    cases Token.all? rest <;> simp [tokens]
  | .object [] =>
    show Token.all? ('\x7b' :: '\x7d' :: rest) = _
    rw [Token.all?_first (t := .openObject) rfl, Token.all?_first (t := .closeObject) rfl]
    cases Token.all? rest <;> rfl
  | .object ((key, value) :: entries) =>
    have hchars : (object ((key, value) :: entries)).indentedChars depth ++ rest =
        '\x7b' :: (indentedEntries (depth + 1) ((key, value) :: entries) ++
          (newline depth ++ '\x7d' :: rest)) := by
      simp [indentedChars]
    rw [hchars, Token.all?_first (t := .openObject) rfl,
      all?_indentedEntries ((key, value) :: entries) (depth + 1) (ends_newline depth),
      Token.all?_newline, Token.all?_first (t := .closeObject) rfl]
    cases Token.all? rest <;> simp [tokens]

theorem all?_indentedItems (items : List Node) (depth : ℕ) {rest : List Char}
    (h : Ends rest) :
    Token.all? (indentedItems depth items ++ rest) =
      (Token.all? rest).map (itemTokens items ++ ·) := by
  match items with
  | [] => exact Option.map_id'.symm
  | [item] =>
    rw [indentedItems, List.append_assoc, Token.all?_newline]
    exact all?_indentedChars item depth h
  | item :: next :: items =>
    have hchars : indentedItems depth (item :: next :: items) ++ rest =
        newline depth ++ (item.indentedChars depth ++
          ',' :: (indentedItems depth (next :: items) ++ rest)) := by
      simp [indentedItems]
    rw [hchars, Token.all?_newline, all?_indentedChars item depth ends_comma,
      Token.all?_first (t := .comma) rfl, all?_indentedItems (next :: items) depth h]
    cases Token.all? rest <;> simp [itemTokens]

theorem all?_indentedEntries (entries : List (String × Node)) (depth : ℕ) {rest : List Char}
    (h : Ends rest) :
    Token.all? (indentedEntries depth entries ++ rest) =
      (Token.all? rest).map (entryTokens entries ++ ·) := by
  match entries with
  | [] => exact Option.map_id'.symm
  | [(key, value)] =>
    have hchars : indentedEntries depth [(key, value)] ++ rest =
        newline depth ++ (quotedChars key ++
          ':' :: ' ' :: (value.indentedChars depth ++ rest)) := by
      simp [indentedEntries]
    rw [hchars, Token.all?_newline, Token.all?_first (Token.first?_quotedChars key _),
      Token.all?_first (t := .colon) rfl, Token.all?_space rfl,
      all?_indentedChars value depth h]
    cases Token.all? rest <;> simp [entryTokens]
  | (key, value) :: next :: entries =>
    have hchars : indentedEntries depth ((key, value) :: next :: entries) ++ rest =
        newline depth ++ (quotedChars key ++ ':' :: ' ' :: (value.indentedChars depth ++
          ',' :: (indentedEntries depth (next :: entries) ++ rest))) := by
      simp [indentedEntries]
    rw [hchars, Token.all?_newline, Token.all?_first (Token.first?_quotedChars key _),
      Token.all?_first (t := .colon) rfl, Token.all?_space rfl,
      all?_indentedChars value depth ends_comma, Token.all?_first (t := .comma) rfl,
      all?_indentedEntries (next :: entries) depth h]
    cases Token.all? rest <;> simp [entryTokens]

end

def printed (n : Node) : String :=
  n.indented ++ "\n"

theorem all?_printed (n : Node) (rest : List Char) :
    Token.all? (n.printed.toList ++ rest) = (Token.all? rest).map (n.tokens ++ ·) := by
  have hchars : n.printed.toList ++ rest = n.indentedChars 0 ++ '\n' :: rest := by
    simp [printed, indented]
  rw [hchars, all?_indentedChars n 0 ends_line, Token.all?_space rfl]

end Node

theorem ofText?_printed (n : Node) : Parsed.ofText? n.printed = some (n.seen 0) := by
  refine ofText?_of_tokens ?_
  have htokens := n.all?_printed []
  rw [List.append_nil, Token.all?, Option.map_some, List.append_nil] at htokens
  exact htokens

end Json
end TableSearch
