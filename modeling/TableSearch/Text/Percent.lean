/-
Percent-encoded text.
-/
import TableSearch.Text.Cut
import TableSearch.Text.Hex
import TableSearch.Text.Utf8

namespace TableSearch
namespace Percent

/-- The bytes of a text in which a percent sign and two digits stand for a byte. -/
def bytes : List Char → List UInt8
  | '%' :: a :: b :: rest =>
      match Hex.toBytes? [a, b] with
      | some [byte] => byte :: bytes rest
      | _ => Utf8.encode ['%'] ++ bytes (a :: b :: rest)
  | c :: rest => Utf8.encode [c] ++ bytes rest
  | [] => []

/-- Whether a byte stands for itself in encoded text. -/
def isPlain (b : UInt8) : Bool :=
  let c := Char.ofNat b.toNat
  b.toNat < 128 && (c.isAlphanum || c == '-' || c == '.' || c == '_' || c == '~')

/-- A byte as itself, or as a percent sign and its two digits. -/
def encodeByte (b : UInt8) : List Char :=
  if isPlain b then [Char.ofNat b.toNat] else '%' :: (Hex.ofBytes [b]).map Char.toUpper

def encode (s : String) : String :=
  String.ofList ((Utf8.encode s.toList).flatMap encodeByte)

/-- The decoded text, if its bytes are UTF-8. -/
def decode? (s : String) : Option String :=
  let bs := bytes s.toList
  let cs := Utf8.decode bs
  if Utf8.encode cs = bs then some (String.ofList cs) else none

/-- A part of a form: a plus sign is a space, and bytes that are no UTF-8 are replaced. -/
def formText (s : String) : String :=
  String.ofList (Utf8.decode (bytes (Text.replaceChars '+' [' '] s.toList)))

/-- The names and values of a form; a name without a value has an empty one. -/
def formFields (s : String) : List (String × String) :=
  ((Text.pieces '&' s).filter fun part => !part.isEmpty).map fun part =>
    match Text.cutFirst '=' part with
    | some (name, value) => (formText name, formText value)
    | none => (formText part, "")

end Percent
end TableSearch
