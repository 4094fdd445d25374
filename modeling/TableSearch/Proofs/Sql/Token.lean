/-
SQL text as tokens.

The scanner knows nothing of statements.  It reads any text: names between double quotes and
literals between single quotes, in which a quote that is written twice stands for itself,
words, placeholders, and symbols.  A quote that is never closed is a token of its own.

A token ends where the next character cannot continue it, so what a text reads as may
depend on what follows.  `Spells` says that a text reads as tokens when something follows
that can continue no word and no quoted text, and `Detached` that it does so whatever
follows.  Texts are put together with these.
-/
import TableSearch.Database.Declaration
import TableSearch.Sql.Backend

namespace TableSearch
namespace Sql

inductive Token where
  /-- A keyword, an alias or a number. -/
  | word (text : String)
  /-- What stands between double quotes. -/
  | name (text : String)
  /-- What stands between single quotes. -/
  | literal (text : String)
  | placeholder (text : String)
  | symbol (text : String)
  /-- A quoted text without end. -/
  | unclosed (text : String)
deriving DecidableEq, Repr

inductive Reading where
  /-- Between tokens. -/
  | gap
  | word (cs : List Char)
  | placeholder (cs : List Char)
  | symbol (cs : List Char)
  /-- After an opening quote. -/
  | quoted (quote : Char) (cs : List Char)
  /-- After a quote that closes the text, unless it is written twice. -/
  | closed (quote : Char) (cs : List Char)

namespace Reading

/-- The token, if it ends here. -/
def tokens : Reading → List Token
  | .gap => []
  | .word cs => [.word (String.ofList cs)]
  | .placeholder cs => [.placeholder (String.ofList cs)]
  | .symbol cs => [.symbol (String.ofList cs)]
  | .quoted _ cs => [.unclosed (String.ofList cs)]
  | .closed quote cs =>
      if quote = '"' then [.name (String.ofList cs)] else [.literal (String.ofList cs)]

def isPair (c d : Char) : Bool :=
  match c with
  | '<' => d == '>' || d == '='
  | '>' => d == '='
  | ':' => d == ':'
  | _ => false

/-- The token with one more character, if that belongs to it. -/
def extend (c : Char) : Reading → Option Reading
  | .gap => none
  | .word cs => if Lexeme.isWordChar c then some (.word (cs ++ [c])) else none
  | .placeholder cs => if Lexeme.isWordChar c then some (.placeholder (cs ++ [c])) else none
  | .symbol [d] => if isPair d c then some (.symbol [d, c]) else none
  | .symbol _ => none
  | .quoted quote cs =>
      if c = quote then some (.closed quote cs) else some (.quoted quote (cs ++ [c]))
  | .closed quote cs => if c = quote then some (.quoted quote (cs ++ [c])) else none

def start (c : Char) : Reading :=
  if Lexeme.isSpace c then .gap
  else if c = '"' ∨ c = '\'' then .quoted c []
  else if c = '?' ∨ c = '$' then .placeholder [c]
  else if Lexeme.isWordChar c then .word [c]
  else .symbol [c]

/-- The tokens of a text, the first of which has begun. -/
def scan (r : Reading) : List Char → List Token
  | [] => r.tokens
  | c :: rest =>
      match r.extend c with
      | some r' => scan r' rest
      | none => r.tokens ++ scan (start c) rest

end Reading

def lex (s : String) : List Token :=
  Reading.scan .gap s.toList

/-! ## Single tokens -/

/-- What follows continues no word and no quoted text. -/
def breaks : List Char → Bool
  | [] => true
  | c :: _ => !Lexeme.isWordChar c && c != '"' && c != '\''

namespace Reading

theorem scan_of_extend {r : Reading} {rest : List Char}
    (h : ∀ c ∈ rest.head?, r.extend c = none) : r.scan rest = r.tokens ++ scan .gap rest := by
  cases rest with
  | nil => exact (List.append_nil _).symm
  | cons c rest =>
    have hc : r.extend c = none := h c rfl
    rw [scan, hc]
    rfl

/-- Word characters continue a word, and a placeholder alike. -/
theorem scan_wordChars {r : List Char → Reading}
    (hr : ∀ cs c, (r cs).extend c = if Lexeme.isWordChar c then some (r (cs ++ [c])) else none)
    {cs ws rest : List Char} (hws : ws.all Lexeme.isWordChar = true) (hrest : breaks rest = true) :
    scan (r cs) (ws ++ rest) = (r (cs ++ ws)).tokens ++ scan .gap rest := by
  induction ws generalizing cs with
  | nil =>
    rw [List.nil_append, List.append_nil]
    refine scan_of_extend fun c hc => ?_
    cases rest with
    | nil => cases hc
    | cons c' rest =>
      cases hc
      simp only [breaks, Bool.and_eq_true, Bool.not_eq_true'] at hrest
      rw [hr, hrest.1.1]
      rfl
  | cons w ws ih =>
    rw [List.all_cons, Bool.and_eq_true] at hws
    rw [List.cons_append, scan, hr, if_pos hws.1]
    show scan (r (cs ++ [w])) (ws ++ rest) = _
    rw [ih hws.2, List.append_assoc]
    rfl

/-- Doubled quotes stand for quotes, and a single one ends the text. -/
theorem scan_quoted {quote : Char} {cs text rest : List Char}
    (hrest : ∀ c ∈ rest.head?, c ≠ quote) :
    scan (.quoted quote cs) (Text.replaceChars quote [quote, quote] text ++ quote :: rest) =
      (Reading.closed quote (cs ++ text)).tokens ++ scan .gap rest := by
  induction text generalizing cs with
  | nil =>
    show scan (.quoted quote cs) (quote :: rest) = _
    rw [List.append_nil, scan, extend, if_pos rfl]
    refine scan_of_extend fun c hc => ?_
    rw [extend, if_neg (hrest c hc)]
  | cons c text ih =>
    by_cases hc : c = quote
    · rw [hc]
      have htext : Text.replaceChars quote [quote, quote] (quote :: text) =
          quote :: quote :: Text.replaceChars quote [quote, quote] text := by
        simp [Text.replaceChars]
      rw [htext]
      simp only [List.cons_append, scan, extend, if_true]
      rw [ih, List.append_assoc]
      rfl
    · have htext : Text.replaceChars quote [quote, quote] (c :: text) =
          c :: Text.replaceChars quote [quote, quote] text := by
        simp [Text.replaceChars, hc]
      rw [htext]
      simp only [List.cons_append, scan, extend, if_neg hc]
      rw [ih, List.append_assoc]
      rfl

end Reading

/-! ## Texts -/

/-- The text reads as these tokens before what continues no token. -/
def Spells (s : String) (ts : List Token) : Prop :=
  ∀ rest, breaks rest = true → Reading.scan .gap (s.toList ++ rest) = ts ++ Reading.scan .gap rest

/-- The text reads as these tokens before anything. -/
def Detached (s : String) (ts : List Token) : Prop :=
  ∀ rest, Reading.scan .gap (s.toList ++ rest) = ts ++ Reading.scan .gap rest

theorem Spells.lex_eq {s : String} {ts : List Token} (h : Spells s ts) : lex s = ts := by
  have hend := h [] rfl
  rw [List.append_nil] at hend
  rw [lex, hend]
  exact List.append_nil ts

theorem Detached.spells {s : String} {ts : List Token} (h : Detached s ts) : Spells s ts :=
  fun rest _ => h rest

theorem Detached.append_spells {s t : String} {ts us : List Token} (hs : Detached s ts)
    (ht : Spells t us) : Spells (s ++ t) (ts ++ us) := by
  intro rest hrest
  rw [String.toList_append, List.append_assoc, hs, ht rest hrest, List.append_assoc]

/-- Whether a text continues no token before it. -/
theorem breaks_append {cs rest : List Char} (h : breaks cs = true) (hrest : breaks rest = true) :
    breaks (cs ++ rest) = true := by
  cases cs with
  | nil => exact hrest
  | cons c cs => exact h

theorem Spells.append {s t : String} {ts us : List Token} (hs : Spells s ts) (ht : Spells t us)
    (hbreaks : breaks t.toList = true) : Spells (s ++ t) (ts ++ us) := by
  intro rest hrest
  rw [String.toList_append, List.append_assoc, hs _ (breaks_append hbreaks hrest), ht rest hrest,
    List.append_assoc]

/-- A text between tokens: it continues none, and none continues it. -/
structure Separates (s : String) (ts : List Token) : Prop where
  ne_nil : s.toList ≠ []
  breaks : breaks s.toList = true
  detached : Detached s ts

theorem Spells.append_separates {s t : String} {ts us : List Token} (hs : Spells s ts)
    (ht : Separates t us) : Detached (s ++ t) (ts ++ us) := by
  intro rest
  have hfollows : Sql.breaks (t.toList ++ rest) = true := by
    have hbreaks := ht.breaks
    cases h : t.toList with
    | nil => exact absurd h ht.ne_nil
    | cons c cs =>
      rw [h] at hbreaks
      exact hbreaks
  rw [String.toList_append, List.append_assoc, hs _ hfollows, ht.detached, List.append_assoc]

theorem spells_empty : Spells "" [] := fun _ _ => rfl

/-- A text of word characters is one token, whose kind its first character decides. -/
theorem spells_wordChars {r : List Char → Reading}
    (hr : ∀ cs c, (r cs).extend c = if Lexeme.isWordChar c then some (r (cs ++ [c])) else none)
    {s : String} {c : Char} {ws : List Char} (hs : s.toList = c :: ws)
    (hstart : Reading.start c = r [c]) (hws : ws.all Lexeme.isWordChar = true) :
    Spells s (r s.toList).tokens := by
  intro rest hrest
  rw [hs]
  show Reading.scan (Reading.start c) (ws ++ rest) = _
  rw [hstart, Reading.scan_wordChars hr hws hrest]
  rfl

theorem spells_word {s : String} {c : Char} {ws : List Char} (hs : s.toList = c :: ws)
    (hstart : Reading.start c = .word [c]) (hws : ws.all Lexeme.isWordChar = true) :
    Spells s [.word s] := by
  have h := spells_wordChars (fun _ _ => rfl) hs hstart hws
  rw [Reading.tokens, String.ofList_toList] at h
  exact h

theorem spells_placeholder {s : String} {c : Char} {ws : List Char} (hs : s.toList = c :: ws)
    (hstart : Reading.start c = .placeholder [c]) (hws : ws.all Lexeme.isWordChar = true) :
    Spells s [.placeholder s] := by
  have h := spells_wordChars (fun _ _ => rfl) hs hstart hws
  rw [Reading.tokens, String.ofList_toList] at h
  exact h

/-- Between quotes any text is one token. -/
theorem spells_quoted {quote : Char} (hstart : Reading.start quote = .quoted quote [])
    (hquote : breaks [quote] = false) {s : String} {text : List Char}
    (hs : s.toList = quote :: (Text.replaceChars quote [quote, quote] text ++ [quote])) :
    Spells s (Reading.closed quote text).tokens := by
  intro rest hrest
  have hstops : ∀ c ∈ rest.head?, c ≠ quote := by
    intro c hc e
    cases rest with
    | nil => cases hc
    | cons c' rest =>
      cases hc
      rw [e] at hrest
      exact Bool.noConfusion (hquote.symm.trans hrest)
  rw [hs]
  show Reading.scan (Reading.start quote)
    (Text.replaceChars quote [quote, quote] text ++ [quote] ++ rest) = _
  rw [hstart, List.append_assoc, List.singleton_append, Reading.scan_quoted hstops,
    List.nil_append]

/-- Between double quotes any text is one name. -/
theorem spells_quoteIdentifier (s : String) : Spells (quoteIdentifier s) [.name s] := by
  have h : Spells (quoteIdentifier s) (Reading.closed '"' s.toList).tokens :=
    spells_quoted rfl rfl (by simp [quoteIdentifier])
  rw [Reading.tokens, if_pos rfl, String.ofList_toList] at h
  exact h

/-- Between single quotes any text is one literal. -/
theorem spells_quoteLiteral (s : String) : Spells (quoteLiteral s) [.literal s] := by
  have h : Spells (quoteLiteral s) (Reading.closed '\'' s.toList).tokens :=
    spells_quoted rfl rfl (by simp [quoteLiteral])
  rw [Reading.tokens, if_neg (by decide), String.ofList_toList] at h
  exact h

end Sql
end TableSearch
