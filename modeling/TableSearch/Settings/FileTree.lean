/-
The files that the program can see.
-/
import TableSearch.Database.Table
import TableSearch.Settings.Location

namespace TableSearch

inductive FileNode where
  | text (content : String)
  | database (d : Database)
  /-- A file that is neither. -/
  | binary
  | directory

/-- Files and directories under absolute paths, as lists of names.  The directories above
them are there too. -/
structure FileTree where
  entries : List (List String × FileNode)

namespace FileTree

def empty : FileTree where
  entries := []

/-- One part more of a path: a dot stays, and two dots go up. -/
def descend (here : List String) (part : String) : List String :=
  if part = "" ∨ part = "." then here
  else if part = ".." then here.dropLast
  else here ++ [part]

def names (path : String) : List String :=
  (Text.pieces '/' path).foldl descend []

def add (t : FileTree) (path : String) (node : FileNode) : FileTree where
  entries := t.entries ++ [(names path, node)]

/-- What stands at a list of names; the last entry of a path counts. -/
def node? (t : FileTree) (path : List String) : Option FileNode :=
  match t.entries.reverse.find? fun e => e.1 == path with
  | some (_, node) => some node
  | none =>
      if path.isEmpty || t.entries.any (fun e => path.isPrefixOf e.1) then some .directory
      else none

def isDirectory (t : FileTree) (path : List String) : Bool :=
  match t.node? path with
  | some .directory => true
  | _ => false

/-- Walk from a directory along the parts of a path.  Every part needs a directory to
stand in. -/
def walk (t : FileTree) (here : List String) : List String → Option FileNode
  | [] => t.node? here
  | part :: rest => if t.isDirectory here then walk t (descend here part) rest else none

/-- The largest number of bytes in a path that is looked up. -/
def longestLookup : Nat := 4095

/-- What a path leads to.  A relative path starts in the current directory. -/
def find? (t : FileTree) (p : Places) (path : String) : Option FileNode :=
  if path.isEmpty ∨ longestLookup < path.utf8ByteSize then none
  else t.walk [] (Text.pieces '/' (Location.join p.current path))

def exists? (t : FileTree) (p : Places) (path : String) : Bool :=
  (t.find? p path).isSome

/-- Why a file has no text. -/
inductive ReadFault where
  | missing
  | directory
  | notText
deriving DecidableEq, Repr

def ReadFault.message : ReadFault → String
  | .missing => "No such file or directory (os error 2)"
  | .directory => "Is a directory (os error 21)"
  | .notText => "stream did not contain valid UTF-8"

def read (t : FileTree) (p : Places) (path : String) : Except ReadFault String :=
  match t.find? p path with
  | some (.text content) => .ok content
  | some .directory => .error .directory
  | some _ => .error .notText
  | none => .error .missing

/-! ## Paths taken as text

The path of a database file is put in order before anything is opened.  What stands on the
way need not be there, but nothing can stand below a file.
-/

/-- The largest number of bytes in one name. -/
def longestName : Nat := 255

/-- The largest number of bytes in a path that was put in order. -/
def longestPath : Nat := 504

def isFile (t : FileTree) (path : List String) : Bool :=
  match t.node? path with
  | none => false
  | some .directory => false
  | some _ => true

/-- The bytes of a path with a separator before every name. -/
def pathSize (path : List String) : Nat :=
  path.foldl (fun size name => size + name.utf8ByteSize + 1) 0

/-- The names that the parts of a path lead to from other names. -/
def settle? (t : FileTree) (here : List String) : List String → Option (List String)
  | [] => if pathSize here ≤ longestPath then some here else none
  | part :: rest =>
      if part = "" ∨ part = "." then t.settle? here rest
      else if part = ".." then t.settle? here.dropLast rest
      else if t.isFile here ∨ longestName < part.utf8ByteSize ∨
          longestPath + 8 < pathSize here + part.utf8ByteSize + 1 then none
      else t.settle? (here ++ [part]) rest

/-- The names of a path, which may be relative to the current directory. -/
def settled? (t : FileTree) (p : Places) (path : String) : Option (List String) :=
  t.settle? [] (Text.pieces '/' (Location.join p.current path))

end FileTree
end TableSearch
