/-
Databases as JSON text.

A snapshot is an array of tables, each an object with its `name`, its `columns` as pairs
of a name and a declaration, and its `rows`.  A cell is null, a truth value, a text, or an
object with one entry: `int` with decimal digits, `float` with the sixteen digits of its
bits, `blob` or `rawtext` with the digits of its bytes.
-/
import TableSearch.Database.Table

namespace TableSearch
namespace Snapshot

open Json (Fault Decoder)

/-- A whole number of 64 bits in decimal digits. -/
def intOfText? (s : String) : Option Int64 :=
  match s.toInt? with
  | some n => if -(2 ^ 63) ≤ n ∧ n < 2 ^ 63 then some (Int64.ofInt n) else none
  | none => none

/-- The double with the bits of sixteen digits after `0x`. -/
def doubleOfText? (s : String) : Option Double := do
  let digits ← Text.dropStart? "0x" s
  let bytes ← Hex.toBytes? digits.toList
  return ⟨UInt64.ofNat (bytes.foldl (fun n b => n * 256 + b.toNat) 0)⟩

def bytesOfText? (s : String) : Option (List UInt8) :=
  Hex.toBytes? s.toList

def orMismatched {α : Type} : Option α → Except Fault α
  | some a => .ok a
  | none => .error .mismatched

def cell : Decoder Cell
  | .null => .ok .null
  | .bool b => .ok (.integer (if b then 1 else 0))
  | .string s => .ok (Cell.ofText s)
  | .object [(some "int", .string s)] => orMismatched ((intOfText? s).map .integer)
  | .object [(some "float", .string s)] => orMismatched ((doubleOfText? s).map .real)
  | .object [(some "blob", .string s)] => orMismatched ((bytesOfText? s).map .blob)
  | .object [(some "rawtext", .string s)] => orMismatched ((bytesOfText? s).map .text)
  | _ => .error .mismatched

def column : Decoder Column
  | .array [.string name, .string declaration] => .ok (Column.declared name declaration)
  | _ => .error .mismatched

def table : Decoder Table := fun n => do
  let fs ← Json.Fields.ofParsed n
  let name ← fs.required 0 "name" Json.Decode.string
  let columns ← fs.required 1 "columns" (Json.Decode.array column)
  let rows ← fs.required 2 "rows" (Json.Decode.array (Json.Decode.array cell))
  fs.closed 3 .mismatched
  return Table.make name columns rows

def database : Decoder Database := fun n => do
  let tables ← Json.Decode.array table n
  return { tables }

end Snapshot

def Database.ofJson (text : String) : Except Json.Fault Database :=
  Json.decodeText Snapshot.database text

end TableSearch
