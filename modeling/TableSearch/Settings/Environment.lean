/-
Environment variables, and the files that add to them.

A file holds one assignment a line, as a shell would read it: quotes, backslashes,
comments and references to other variables.  A quoted value may go over several lines.
Variables that are set already stay as they are.
-/
import TableSearch.Keyed
import TableSearch.Text.Alphanumeric
import TableSearch.Text.Blank

namespace TableSearch

abbrev Environment : Type := Dict String

def envFileName : String := ".env"

namespace EnvFile

/-! ## Logical lines -/

/-- Where a line stands between quotes and escapes. -/
inductive Stretch where
  | plain
  /-- After a single white space. -/
  | space
  | escape
  | strong
  | strongEscape
  | weak
  | weakEscape
deriving DecidableEq, Repr

namespace Stretch

def opening (c : Char) : Stretch :=
  if c = '\\' then .escape
  else if c = '"' then .weak
  else if c = '\'' then .strong
  else .plain

def next (s : Stretch) (c : Char) : Stretch :=
  match s with
  | .plain => if Text.isSpace c && c != '\n' && c != '\r' then .space else opening c
  | .space => opening c
  | .escape => .plain
  | .strong => if c = '\\' then .strongEscape else if c = '\'' then .plain else .strong
  | .strongEscape => .strong
  | .weak => if c = '\\' then .weakEscape else if c = '"' then .plain else .weak
  | .weakEscape => .weak

end Stretch

/-- The characters of a line before a comment, and how the line ends; nothing when a
comment ends it. -/
def beforeComment (s : Stretch) : List Char → List Char × Option Stretch
  | [] => ([], some s)
  | c :: rest =>
      if s = .space ∧ c = '#' then ([], none)
      else
        let (kept, last) := beforeComment (s.next c) rest
        (c :: kept, last)

/-- Lines with their ends. -/
def lines : List Char → List (List Char)
  | [] => []
  | c :: rest =>
      if c = '\n' then [c] :: lines rest
      else
        match lines rest with
        | [] => [[c]]
        | line :: more => (c :: line) :: more

def withoutEnd (line : List Char) : List Char :=
  match line.reverse with
  | '\n' :: '\r' :: rest => rest.reverse
  | '\n' :: rest => rest.reverse
  | _ => line

/-- Lines joined where a quote or an escape is open.  A text that ends inside one ends in a
fault. -/
def logicalLines (held : List Char) (s : Stretch) : List (List Char) → List (Option (List Char))
  | [] => if s = .plain then [] else [none]
  | line :: rest =>
      if (Text.trimStart (held ++ line)).head? = some '#' then
        some [] :: logicalLines [] .plain rest
      else
        match beforeComment s line with
        | (kept, none) => some (held ++ kept) :: logicalLines [] .plain rest
        | (_, some .plain) => some (withoutEnd (held ++ line)) :: logicalLines [] .plain rest
        | (_, some last) => logicalLines (held ++ line) last rest

/-! ## Values -/

/-- A reference to a variable that is being read. -/
inductive Reference where
  /-- After a dollar sign. -/
  | bare (name : List Char)
  /-- Between braces. -/
  | braced (name : List Char)

inductive Mode where
  | plain
  | weak
  | strong
  /-- After the value only a comment may come. -/
  | ended
deriving DecidableEq

structure Reading where
  mode : Mode
  escaped : Bool
  reference : Option Reference
  /-- The value so far, last character first. -/
  output : List Char

namespace Reading

def start : Reading where
  mode := .plain
  escaped := false
  reference := none
  output := []

def push (r : Reading) (c : Char) : Reading :=
  { r with output := c :: r.output }

/-- The value with that of a variable; a variable that is not set is empty. -/
def pushVariable (env : Environment) (r : Reading) (name : List Char) : Reading :=
  { r with
    output := ((env.get? (String.ofList name)).getD "").toList.reverse ++ r.output
    reference := none }

def escapedChar? (c : Char) : Option Char :=
  if c = 'n' then some '\n'
  else if ['\\', '\'', '"', '$', ' '].contains c then some c
  else none

/-- A character in a reference.  Names are letters and numbers of any alphabet; between
braces all characters up to the closing one. -/
def stepReference (env : Environment) (r : Reading) (c : Char) : Reference → Reading
  | .braced name =>
      if c = '\x7d' then r.pushVariable env name
      else { r with reference := some (.braced (name ++ [c])) }
  | .bare name =>
      if Text.isAlphanumeric c then { r with reference := some (.bare (name ++ [c])) }
      else if c = '\x7b' ∧ name = [] then { r with reference := some (.braced []) }
      else if c = '$' then { r.pushVariable env name with reference := some (.bare []) }
      else (r.pushVariable env name).push c

def stepPlain (r : Reading) (c : Char) : Reading :=
  if c = '\'' then { r with mode := .strong }
  else if c = '"' then { r with mode := .weak }
  else if c = '\\' then { r with escaped := true }
  else if c = ' ' ∨ c = '\t' then { r with mode := .ended }
  else r.push c

def stepWeak (r : Reading) (c : Char) : Reading :=
  if c = '"' then { r with mode := .plain }
  else if c = '\\' then { r with escaped := true }
  else r.push c

/-- The next character; nothing for one that may not stand here. -/
def step? (env : Environment) (r : Reading) (c : Char) : Option Reading :=
  if r.escaped then (escapedChar? c).map fun d => { r.push d with escaped := false }
  else
    match r.mode, r.reference with
    | .strong, _ => some (if c = '\'' then { r with mode := .plain } else r.push c)
    | _, some reference => some (r.stepReference env c reference)
    | mode, none =>
        if c = '$' then some { r with reference := some (.bare []) }
        else some (if mode = .weak then r.stepWeak c else r.stepPlain c)

def run? (env : Environment) (r : Reading) : List Char → Option Reading
  | [] => some r
  | c :: rest =>
      if r.mode = .ended then
        if c = ' ' ∨ c = '\t' then run? env r rest
        else if c = '#' then some r
        else none
      else (r.step? env c).bind fun next => run? env next rest

/-- The value that was read.  No quote and no brace may be open. -/
def finish? (env : Environment) (r : Reading) : Option String :=
  if r.mode = .weak ∨ r.mode = .strong then none
  else
    match r.reference with
    | some (.braced _) => none
    | some (.bare name) => some (String.ofList (r.pushVariable env name).output.reverse)
    | none => some (String.ofList r.output.reverse)

end Reading

def value? (env : Environment) (cs : List Char) : Option String :=
  (Reading.start.run? env cs).bind fun r => r.finish? env

/-! ## Assignments -/

def isKeyStart (c : Char) : Bool :=
  c.isAlpha || c == '_'

def isKeyChar (c : Char) : Bool :=
  c.isAlphanum || c == '_' || c == '.'

/-- A key and what follows it, without white space between. -/
def key? (cs : List Char) : Option (String × List Char) :=
  match cs with
  | [] => none
  | c :: _ =>
      if isKeyStart c then
        some (String.ofList (cs.takeWhile isKeyChar), Text.trimStart (cs.dropWhile isKeyChar))
      else none

/-- A key before an equals sign, and what follows the sign. -/
def assigned? (cs : List Char) : Option (String × List Char) :=
  match key? cs with
  | some (key, '=' :: rest) => some (key, Text.trimStart rest)
  | some ("export", rest) =>
      match key? rest with
      | some (key, '=' :: rest) => some (key, Text.trimStart rest)
      | _ => none
  | _ => none

/-- Whether nothing comes, or only a comment. -/
def isIdle (cs : List Char) : Bool :=
  match cs with
  | [] => true
  | c :: _ => c == '#'

/-- The environment after one line; nothing for a line at fault. -/
def assign? (env : Environment) (line : List Char) : Option Environment :=
  let cs := Text.trimStart (Text.trimEnd line)
  if isIdle cs then some env
  else do
    let (key, rest) ← assigned? cs
    let value ← if isIdle rest then some "" else value? env rest
    return if env.contains key then env else env.set key value

/-- The environment after lines, up to the first at fault. -/
def assignAll (env : Environment) : List (Option (List Char)) → Environment
  | [] => env
  | none :: _ => env
  | some line :: rest =>
      match assign? env line with
      | some env => assignAll env rest
      | none => env

/-- The characters of a file without its byte-order mark. -/
def withoutMark (cs : List Char) : List Char :=
  match cs with
  | c :: rest => if c.toNat = 0xFEFF then rest else cs
  | [] => []

def load (env : Environment) (text : String) : Environment :=
  assignAll env (logicalLines [] .plain (lines (withoutMark text.toList)))

end EnvFile
end TableSearch
