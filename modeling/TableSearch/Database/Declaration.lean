/-
Column declarations.

A declaration begins with the words of a type, which may have arguments in parentheses.
Constraints follow from the first word on that can be no part of a type.  Words stand
between white space and comments, and a quoted name is one word.
-/
import TableSearch.Text.Cut

namespace TableSearch

/-- How texts of a column are compared. -/
inductive Collation where
  /-- Byte for byte. -/
  | binary
  /-- Without regard to the case of ASCII letters. -/
  | nocase
  /-- Without regard to spaces at the end. -/
  | rtrim
deriving DecidableEq, Repr

/-! ## Lexemes -/

inductive LexemeKind where
  | blank
  | word
  | quoted
  | symbol
deriving DecidableEq, Repr

/-- A part of a declaration, with its characters as written. -/
structure Lexeme where
  kind : LexemeKind
  text : List Char
deriving DecidableEq, Repr

namespace Lexeme

def isSpace (c : Char) : Bool :=
  c == ' ' || (9 ≤ c.toNat && c.toNat ≤ 13)

/-- Whether a character may stand in a word.  Every character beyond ASCII may. -/
def isWordChar (c : Char) : Bool :=
  c.isAlphanum || c == '_' || c == '$' || 128 ≤ c.toNat

/-- The quote that ends a text after an opening one. -/
def closing? (c : Char) : Option Char :=
  if c = '"' ∨ c = '\'' ∨ c.toNat = 96 then some c
  else if c = '[' then some ']'
  else none

/-- The length of a line comment after its two signs. -/
def lineLength (cs : List Char) : Nat :=
  (cs.takeWhile fun c => c != '\n').length

/-- The length of a block comment after its opening. -/
def blockLength : List Char → Nat
  | '*' :: '/' :: _ => 2
  | _ :: rest => blockLength rest + 1
  | [] => 0

/-- The length of a quoted text after its opening.  A quote that is written twice belongs
to the text. -/
def quotedLength (close : Char) : List Char → Nat
  | c :: d :: rest =>
      if c = close then
        if d = close ∧ close ≠ ']' then quotedLength close rest + 2 else 1
      else quotedLength close (d :: rest) + 1
  | [_] => 1
  | [] => 0

/-- The kind of the lexeme that begins with a character, and how many more characters it
takes. -/
def shape (c : Char) (rest : List Char) : LexemeKind × Nat :=
  if isSpace c then (.blank, (rest.takeWhile isSpace).length)
  else if c = '-' ∧ rest.head? = some '-' then (.blank, lineLength rest)
  else if c = '/' ∧ rest.head? = some '*' then (.blank, blockLength (rest.drop 1) + 1)
  else if isWordChar c then (.word, (rest.takeWhile isWordChar).length)
  else
    match closing? c with
    | some close => (.quoted, quotedLength close rest)
    | none => (.symbol, 0)

/-- All lexemes of a text, blanks included. -/
def all : List Char → List Lexeme
  | [] => []
  | c :: rest =>
      { kind := (shape c rest).1, text := c :: rest.take (shape c rest).2 } ::
        all (rest.drop (shape c rest).2)
termination_by cs => cs.length
decreasing_by
  simp only [List.length_drop, List.length_cons]
  omega

def isBlank (l : Lexeme) : Bool :=
  l.kind == .blank

/-- The bare word in lower case; quoted texts are no bare words. -/
def word? (l : Lexeme) : Option String :=
  if l.kind = .word then some (Text.asciiLower (String.ofList l.text)) else none

def isSymbol (c : Char) (l : Lexeme) : Bool :=
  l.kind == .symbol && l.text == [c]

end Lexeme

/-- The characters up to a closing quote, where a doubled quote stands for one. -/
def unquotedChars (close : Char) : List Char → List Char
  | c :: d :: rest =>
      if c = close then
        if d = close ∧ close ≠ ']' then c :: unquotedChars close rest else []
      else c :: unquotedChars close (d :: rest)
  | [c] => if c = close then [] else [c]
  | [] => []

/-- A text without its quotes, if it begins with one. -/
def unquoted (cs : List Char) : List Char :=
  match cs with
  | c :: rest =>
      match Lexeme.closing? c with
      | some close => unquotedChars close rest
      | none => cs
  | [] => []

/-- A text of three characters or more that begins with a quote, and has no opening quote
before its last character, without its first and its last character. -/
def peeled (cs : List Char) : List Char :=
  match cs with
  | c :: d :: e :: rest =>
      let inner := (d :: e :: rest).dropLast
      if (Lexeme.closing? c).isSome && inner.all fun x => (Lexeme.closing? x).isNone then inner
      else cs
  | _ => cs

/-! ## Declarations -/

/-- Whether and how a column is the primary key. -/
inductive KeyOrder where
  | ascending
  | descending
deriving DecidableEq, Repr

structure Declaration where
  /-- The declaration as written. -/
  text : String
  /-- The type, if there is one. -/
  type : Option String
  primaryKey : Option KeyOrder
  /-- Whether the column holds the numbers of the rows. -/
  isRowNumber : Bool
  /-- Whether row numbers are never used again. -/
  autoincrement : Bool
  unique : Bool
  collation : Collation
deriving DecidableEq, Repr

namespace Declaration

def constraintWords : List String :=
  ["constraint", "primary", "not", "null", "unique", "check", "default", "collate",
    "references", "deferrable", "as"]

/-- Whether a lexeme may stand in the name of a type. -/
def inTypeName (l : Lexeme) : Bool :=
  match l.kind with
  | .blank => true
  | .quoted => true
  | .word => !l.word?.any constraintWords.contains
  | .symbol => false

/-- The lexemes up to the first closing parenthesis. -/
def throughParenthesis : List Lexeme → List Lexeme
  | [] => []
  | l :: rest => if l.isSymbol ')' then [l] else l :: throughParenthesis rest

/-- The lexemes of the type: its words, and its arguments. -/
def typeLexemes (ls : List Lexeme) : List Lexeme :=
  let name := ls.takeWhile inTypeName
  match ls.drop name.length with
  | l :: rest =>
      if l.isSymbol '(' && !name.all Lexeme.isBlank then name ++ throughParenthesis (l :: rest)
      else name
  | [] => name

/-- The type as written between its first and its last word.  Quotes around all of it are
gone. -/
def writtenType (ls : List Lexeme) : List Char :=
  let core := ((typeLexemes ls).dropWhile Lexeme.isBlank).reverse.dropWhile Lexeme.isBlank
  peeled (core.reverse.flatMap Lexeme.text)

def typeOf (written : List Char) : Option String :=
  if written.isEmpty then none else some (String.ofList (unquoted written))

def outside (depth : Nat) : List Lexeme → List Lexeme
  | [] => []
  | l :: rest =>
      if l.isSymbol '(' then outside (depth + 1) rest
      else if l.isSymbol ')' then outside (depth - 1) rest
      else if depth = 0 then l :: outside depth rest
      else outside depth rest

/-- The order of the primary key among the words of constraints. -/
def primaryKeyOf : List (Option String) → Option KeyOrder
  | some "primary" :: some "key" :: some "desc" :: _ => some .descending
  | some "primary" :: some "key" :: _ => some .ascending
  | _ :: rest => primaryKeyOf rest
  | [] => none

def collationNamed (name : String) : Collation :=
  match Text.asciiLower name with
  | "nocase" => .nocase
  | "rtrim" => .rtrim
  | _ => .binary

/-- The collation of the last clause that names one. -/
def collationOf (found : Collation) : List Lexeme → Collation
  | l :: name :: rest =>
      if l.word? = some "collate" then
        collationOf (collationNamed (String.ofList (unquoted name.text))) rest
      else collationOf found (name :: rest)
  | _ => found

/-- The declaration that a text makes.  A column of exactly the type `INTEGER` that is the
primary key in ascending order holds the numbers of the rows. -/
def ofText (text : String) : Declaration :=
  let ls := Lexeme.all text.toList
  let constraints := (outside 0 (ls.drop (typeLexemes ls).length)).filter fun l => !l.isBlank
  let words := constraints.map Lexeme.word?
  let written := writtenType ls
  let primaryKey := primaryKeyOf words
  { text
    type := typeOf written
    primaryKey
    isRowNumber := Text.asciiLower (String.ofList written) == "integer" &&
      primaryKey == some .ascending
    autoincrement := words.contains (some "autoincrement")
    unique := words.contains (some "unique")
    collation := collationOf .binary constraints }

/-- Whether the whole numbers of the column are truth values. -/
def isBoolean (d : Declaration) : Bool :=
  d.type.any fun t => ["boolean", "bool"].contains (Text.asciiLower t)

/-- Whether the column has an index of its own. -/
def isIndexed (d : Declaration) : Bool :=
  d.unique || (d.primaryKey.isSome && !d.isRowNumber)

end Declaration
end TableSearch
