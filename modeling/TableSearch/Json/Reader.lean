/-
JSON trees from text.

The reader takes one token after another.  It keeps the containers that are still
open, innermost first, and knows which token may come next.  A container inside 127
others is read, but its content is unusable.
-/
import TableSearch.Json.Parsed
import TableSearch.Json.Token

namespace TableSearch
namespace Json

/-- A container that waits for a value: the items or entries before it, last first. -/
inductive Frame where
  | array (items : List Parsed)
  | object (entries : List (Option String × Parsed)) (key : Option String)

/-- What has been read, and so what may come next.  The frames are the open containers
around the place that was reached. -/
inductive Progress where
  /-- A value must come. -/
  | value (frames : List Frame)
  /-- After an opening bracket. -/
  | arrayStart (frames : List Frame)
  /-- After an item; a comma or the closing bracket must come. -/
  | afterItem (items : List Parsed) (frames : List Frame)
  /-- After an opening brace. -/
  | objectStart (frames : List Frame)
  /-- A key must come. -/
  | entryStart (entries : List (Option String × Parsed)) (frames : List Frame)
  /-- A colon must come. -/
  | colon (entries : List (Option String × Parsed)) (key : Option String) (frames : List Frame)
  /-- After an entry; a comma or the closing brace must come. -/
  | afterEntry (entries : List (Option String × Parsed)) (frames : List Frame)
  /-- The whole value was read. -/
  | done (n : Parsed)

namespace Progress

/-- The largest number of containers in each other. -/
def deepest : Nat := 127

def complete (n : Parsed) : List Frame → Progress
  | [] => .done n
  | .array items :: frames => .afterItem (n :: items) frames
  | .object entries key :: frames => .afterEntry ((key, n) :: entries) frames

/-- A container is complete; the frames are those around it. -/
def close (n : Parsed) (frames : List Frame) : Progress :=
  complete (if (frames.drop (deepest - 1)).isEmpty then n else .unusable) frames

def scalar? : Token → Option Parsed
  | .null => some .null
  | .bool b => some (.bool b)
  | .number (some (.int n)) => some (.int n)
  | .number (some (.float x)) => some (.float x)
  | .number none => some .unusable
  | .string (some s) => some (.string s)
  | .string none => some .unusable
  | _ => none

def begin? (frames : List Frame) (t : Token) : Option Progress :=
  match t with
  | .openArray => some (.arrayStart frames)
  | .openObject => some (.objectStart frames)
  | t => (scalar? t).map fun n => complete n frames

def step? (p : Progress) (t : Token) : Option Progress :=
  match p, t with
  | .value frames, t => begin? frames t
  | .arrayStart frames, .closeArray => some (close (.array []) frames)
  | .arrayStart frames, t => begin? (.array [] :: frames) t
  | .afterItem items frames, .comma => some (.value (.array items :: frames))
  | .afterItem items frames, .closeArray => some (close (.array items.reverse) frames)
  | .objectStart frames, .closeObject => some (close (.object []) frames)
  | .objectStart frames, .string key => some (.colon [] key frames)
  | .entryStart entries frames, .string key => some (.colon entries key frames)
  | .colon entries key frames, .colon => some (.value (.object entries key :: frames))
  | .afterEntry entries frames, .comma => some (.entryStart entries frames)
  | .afterEntry entries frames, .closeObject =>
      some (close (.object entries.reverse) frames)
  | _, _ => none

def run? (p : Progress) : List Token → Option Progress
  | [] => some p
  | t :: rest => (p.step? t).bind fun q => q.run? rest

theorem run?_append (p : Progress) (ts us : List Token) :
    p.run? (ts ++ us) = (p.run? ts).bind fun q => q.run? us := by
  induction ts generalizing p with
  | nil => rfl
  | cons t rest ih =>
    simp only [List.cons_append, run?]
    cases p.step? t with
    | none => rfl
    | some q => exact ih q

end Progress

/-- The tree of a text that holds exactly one JSON value. -/
def Parsed.ofText? (text : String) : Option Parsed := do
  let tokens ← Token.all? text.toList
  match ← Progress.run? (.value []) tokens with
  | .done n => some n
  | _ => none

end Json
end TableSearch
