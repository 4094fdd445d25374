/-
Database backends and the SQL that differs between them.
-/
import TableSearch.Search.SortOrder

namespace TableSearch

inductive Backend where
  | sqlite
  | postgres
deriving DecidableEq, Repr

namespace Backend

def name : Backend → String
  | .sqlite => "sqlite"
  | .postgres => "postgres"

def title : Backend → String
  | .sqlite => "SQLite"
  | .postgres => "PostgreSQL"

def words : List (String × Backend) :=
  [("sqlite", .sqlite), ("postgres", .postgres)]

/-- The backend of a word in any case; a message for any other text. -/
def parse (s : String) : Except String Backend :=
  match Text.asciiLower s with
  | "sqlite" => .ok .sqlite
  | "postgres" => .ok .postgres
  | "postgresql" => .ok .postgres
  | _ => .error ("Invalid backend '" ++ s ++ "'. Valid options: sqlite, postgres")

/-! ## SQL texts -/

/-- The placeholder of a parameter, counted from one. -/
def placeholder (b : Backend) (n : Nat) : String :=
  match b with
  | .sqlite => "?"
  | .postgres => "$" ++ toString n

def castText (b : Backend) (column : String) : String :=
  match b with
  | .sqlite => "CAST(" ++ column ++ " AS TEXT)"
  | .postgres => column ++ "::TEXT"

/-- A sort key with a place for rows without a value.  Where the words for it may be
missing, a key that tells these rows apart stands before the column. -/
def orderWithNulls (b : Backend) (column : String) (d : Direction) (nullsLast : Bool) :
    String :=
  match b with
  | .sqlite =>
      "CASE WHEN " ++ column ++ " IS NULL THEN " ++ (if nullsLast then "1" else "0") ++
        " ELSE " ++ (if nullsLast then "0" else "1") ++ " END, " ++ column ++ " " ++ d.sql
  | .postgres =>
      column ++ " " ++ d.sql ++ (if nullsLast then " NULLS LAST" else " NULLS FIRST")

end Backend

namespace Sql

/-- A name between double quotes; a quote in it is written twice. -/
def quoteIdentifier (s : String) : String :=
  "\"" ++ String.ofList (Text.replaceChars '"' ['"', '"'] s.toList) ++ "\""

/-- A text between single quotes; a quote in it is written twice. -/
def quoteLiteral (s : String) : String :=
  "'" ++ String.ofList (Text.replaceChars '\'' ['\'', '\''] s.toList) ++ "'"

def limitOffset (limit offset : String) : String :=
  "LIMIT " ++ limit ++ " OFFSET " ++ offset

end Sql
end TableSearch
