/-
JSON trees and their two written forms.
-/
import TableSearch.Double.Layout
import TableSearch.Text.Hex

namespace TableSearch
namespace Json

/-- A JSON tree.  An object keeps its entries in the order they were given, with
repeated keys. -/
inductive Node where
  | null
  | bool (b : Bool)
  | int (n : Int)
  | float (x : Double)
  | string (s : String)
  | array (items : List Node)
  | object (entries : List (String × Node))
deriving Inhabited

/-! ## Strings -/

/-- Quotes, backslashes and control characters below U+0020 are escaped. -/
def escapeChar (c : Char) : List Char :=
  if c = '"' then ['\\', '"']
  else if c = '\\' then ['\\', '\\']
  else if c.toNat = 8 then ['\\', 'b']
  else if c = '\t' then ['\\', 't']
  else if c = '\n' then ['\\', 'n']
  else if c.toNat = 12 then ['\\', 'f']
  else if c = '\r' then ['\\', 'r']
  else if c.toNat < 32 then
    ['\\', 'u', '0', '0', Hex.digit (c.toNat / 16), Hex.digit (c.toNat % 16)]
  else [c]

def quotedChars (s : String) : List Char :=
  '"' :: s.toList.flatMap escapeChar ++ ['"']

def intChars (n : Int) : List Char :=
  (if n < 0 then ['-'] else []) ++ Nat.toDigits 10 n.natAbs

namespace Node

/-! ## Compact form -/

mutual

/-- The compact form, without white space. -/
def compactChars : Node → List Char
  | .null => ['n', 'u', 'l', 'l']
  | .bool b => if b then ['t', 'r', 'u', 'e'] else ['f', 'a', 'l', 's', 'e']
  | .int n => intChars n
  | .float x => Layout.json.chars x
  | .string s => quotedChars s
  | .array items => '[' :: compactItems items ++ [']']
  | .object entries => '\x7b' :: compactEntries entries ++ ['\x7d']

def compactItems : List Node → List Char
  | [] => []
  | [item] => item.compactChars
  | item :: rest => item.compactChars ++ ',' :: compactItems rest

def compactEntries : List (String × Node) → List Char
  | [] => []
  | [(key, value)] => quotedChars key ++ ':' :: value.compactChars
  | (key, value) :: rest =>
      quotedChars key ++ ':' :: value.compactChars ++ ',' :: compactEntries rest

end

def compact (n : Node) : String :=
  String.ofList n.compactChars

/-! ## Indented form -/

def newline (depth : Nat) : List Char :=
  '\n' :: List.replicate (2 * depth) ' '

mutual

/-- Two spaces per level, each item and entry on a line; empty containers stay on one. -/
def indentedChars (depth : Nat) : Node → List Char
  | .array [] => ['[', ']']
  | .array (item :: rest) =>
      '[' :: indentedItems (depth + 1) (item :: rest) ++ newline depth ++ [']']
  | .object [] => ['\x7b', '\x7d']
  | .object (entry :: rest) =>
      '\x7b' :: indentedEntries (depth + 1) (entry :: rest) ++ newline depth ++ ['\x7d']
  | .null => ['n', 'u', 'l', 'l']
  | .bool b => if b then ['t', 'r', 'u', 'e'] else ['f', 'a', 'l', 's', 'e']
  | .int n => intChars n
  | .float x => Layout.json.chars x
  | .string s => quotedChars s

def indentedItems (depth : Nat) : List Node → List Char
  | [] => []
  | [item] => newline depth ++ item.indentedChars depth
  | item :: rest => newline depth ++ item.indentedChars depth ++ ',' :: indentedItems depth rest

def indentedEntries (depth : Nat) : List (String × Node) → List Char
  | [] => []
  | [(key, value)] =>
      newline depth ++ quotedChars key ++ ':' :: ' ' :: value.indentedChars depth
  | (key, value) :: rest =>
      newline depth ++ quotedChars key ++ ':' :: ' ' :: value.indentedChars depth ++
        ',' :: indentedEntries depth rest

end

def indented (n : Node) : String :=
  String.ofList (n.indentedChars 0)

/-- An object in which a repeated key keeps its first place and its last value. -/
def mergedObject (entries : List (String × Node)) : Node :=
  .object (entries.foldl (fun done (key, value) =>
    if done.any (fun e => e.1 == key) then
      done.map fun e => if e.1 == key then (key, value) else e
    else done ++ [(key, value)]) [])

end Node
end Json
end TableSearch
