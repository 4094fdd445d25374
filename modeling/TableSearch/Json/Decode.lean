/-
Data from JSON trees.

Text can be faulty in two ways: it is no JSON, or it is JSON of the wrong shape.  A
record may be written as an object, or as an array of its fields in order.
-/
import TableSearch.Json.Reader
import TableSearch.Keyed

namespace TableSearch
namespace Json

/-- Why a text holds no value of the wanted type. -/
inductive Fault where
  /-- The text is not well formed. -/
  | malformed
  /-- The text is well formed, but its shape is not the wanted one. -/
  | mismatched
deriving DecidableEq, Repr

abbrev Decoder (α : Type) : Type := Parsed → Except Fault α

/-- Read a text and decode its tree. -/
def decodeText {α : Type} (decode : Decoder α) (text : String) : Except Fault α :=
  match Parsed.ofText? text with
  | none => .error .malformed
  | some n => decode n

namespace Decode

variable {α : Type}

/-- What is wrong with a value that is not of the wanted kind. -/
def fault : Parsed → Fault
  | .unusable => .malformed
  | _ => .mismatched

/-- A key that must be known. -/
def key : Option String → Except Fault String
  | some k => .ok k
  | none => .error .malformed

/-- Decode a value of which no part may be unusable, wanted or not. -/
def whole (decode : Decoder α) : Decoder α := fun n =>
  if n.isUsable then decode n else .error .malformed

def string : Decoder String
  | .string s => .ok s
  | n => .error (fault n)

/-- A whole number that is not negative and lies below the bound. -/
def natBelow (bound : Nat) : Decoder Nat
  | .int n => if 0 ≤ n ∧ n < bound then .ok n.toNat else .error .mismatched
  | n => .error (fault n)

def array (item : Decoder α) : Decoder (List α)
  | .array items => items.mapM item
  | n => .error (fault n)

/-- A map from texts; a repeated key keeps its last value. -/
def dict (value : Decoder α) : Decoder (Dict α)
  | .object entries => do
      let decoded ← entries.mapM fun (k, n) => do
        let k ← key k
        let a ← value n
        return (k, a)
      return Keyed.ofList decoded
  | n => .error (fault n)

/-- Null stands for absence. -/
def nullable (value : Decoder α) : Decoder (Option α)
  | .null => .ok none
  | n => some <$> value n

def lookup (table : List (String × α)) (word : String) : Except Fault α :=
  match table.find? fun e => e.1 == word with
  | some (_, a) => .ok a
  | none => .error .mismatched

/-- One of a set of words, also as the only key of an object with the value null.  What
is neither a text nor an object is no word at all, and the text malformed. -/
def keyword (table : List (String × α)) : Decoder α
  | .string word => lookup table word
  | .object [] => .error .malformed
  | .object ((some word, .null) :: rest) => do
      let a ← lookup table word
      if rest.isEmpty then .ok a else .error .malformed
  | .object ((none, _) :: _) => .error .malformed
  | .object _ => .error .mismatched
  | _ => .error .malformed

/-- One of a set of words where the shape is judged after reading: an empty object may
stand for null, and every other fault is one of shape. -/
def looseKeyword (table : List (String × α)) : Decoder α
  | .string word => lookup table word
  | .object [(some word, .null)] => lookup table word
  | .object [(some word, .object [])] => lookup table word
  | _ => .error .mismatched

end Decode

/-! ## Records -/

/-- The fields of a record, by name or in order. -/
inductive Fields where
  | named (entries : List (String × Parsed))
  | ordered (items : List Parsed)

namespace Fields

variable {α : Type}

def ofEntries (entries : List (Option String × Parsed)) : Except Fault Fields := do
  let entries ← entries.mapM fun (k, n) => do
    let k ← Decode.key k
    return (k, n)
  return .named entries

def ofParsed : Decoder Fields
  | .object entries => ofEntries entries
  | .array items => .ok (.ordered items)
  | n => .error (Decode.fault n)

/-- The tree of a field, if there is one.  A name given twice is a fault. -/
def get? (fs : Fields) (position : Nat) (name : String) : Except Fault (Option Parsed) :=
  match fs with
  | .ordered items => .ok items[position]?
  | .named entries =>
      match entries.filter fun e => e.1 == name with
      | [] => .ok none
      | [(_, n)] => .ok (some n)
      | _ => .error .mismatched

def required (fs : Fields) (position : Nat) (name : String) (decode : Decoder α) :
    Except Fault α := do
  match ← fs.get? position name with
  | some n => decode n
  | none => .error .mismatched

/-- A field that may be missing by name or be null.  In order it must be there. -/
def optional (fs : Fields) (position : Nat) (name : String) (decode : Decoder α) :
    Except Fault (Option α) := do
  match ← fs.get? position name with
  | some n => Decode.nullable decode n
  | none =>
      match fs with
      | .named _ => .ok none
      | .ordered _ => .error .mismatched

def defaulted (fs : Fields) (position : Nat) (name : String) (decode : Decoder α)
    (default : α) : Except Fault α := do
  match ← fs.get? position name with
  | some n => decode n
  | none => .ok default

/-- No field stands after the last one of an ordered record. -/
def closed (fs : Fields) (count : Nat) (fault : Fault) : Except Fault Unit :=
  match fs with
  | .named _ => .ok ()
  | .ordered items => if items.length ≤ count then .ok () else .error fault

end Fields
end Json
end TableSearch
