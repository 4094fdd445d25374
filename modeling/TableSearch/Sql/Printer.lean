/-
Statements as SQL text.
-/
import TableSearch.Sql.Statement

namespace TableSearch
namespace Sql

def aliasText (n : Nat) : String :=
  "t" ++ toString n

def rootAlias : String := aliasText 0

def ColumnRef.sql (r : ColumnRef) : String :=
  aliasText r.table ++ "." ++ quoteIdentifier r.column

/-- The join whose table has number `n`. -/
def JoinClause.sql (n : Nat) (j : JoinClause) : String :=
  "LEFT JOIN " ++ quoteIdentifier j.table ++ " " ++ aliasText n ++ " ON " ++
    aliasText n ++ "." ++ quoteIdentifier j.references ++ " = " ++
    aliasText j.parent ++ "." ++ quoteIdentifier j.column

/-- The joins, each after a space, with numbers from `n` on. -/
def joinsSql (n : Nat) : List JoinClause → String
  | [] => ""
  | j :: rest => " " ++ j.sql n ++ joinsSql (n + 1) rest

namespace Condition

/-- Whether a condition needs parentheses among others. -/
def isGroup : Condition → Bool
  | .and (_ :: _ :: _) => true
  | _ => false

mutual

def sql (b : Backend) : Condition → String
  | .always => "1=1"
  | .never => "1=0"
  | .compare ref op param => ref.sql ++ " " ++ op.sql ++ " " ++ b.placeholder param
  | .like ref cast param escape =>
      (if cast then b.castText ref.sql else ref.sql) ++ " LIKE " ++ b.placeholder param ++
        " ESCAPE " ++ quoteLiteral (String.singleton escape)
  | .isNull ref => ref.sql ++ " IS NULL"
  | .isNotNull ref => ref.sql ++ " IS NOT NULL"
  | .isIn ref params =>
      ref.sql ++ " IN (" ++ Text.joined ", " (params.map b.placeholder) ++ ")"
  | .and parts => partsSql b parts

def partsSql (b : Backend) : List Condition → String
  | [] => ""
  | [c] => partSql b c
  | c :: rest => partSql b c ++ " AND " ++ partsSql b rest

def partSql (b : Backend) (c : Condition) : String :=
  if c.isGroup then "(" ++ sql b c ++ ")" else sql b c

end

end Condition

def SortKey.sql (b : Backend) (k : SortKey) : String :=
  match k.nulls with
  | .native => k.ref.sql ++ " " ++ k.direction.sql
  | .nullsFirst => b.orderWithNulls k.ref.sql k.direction false
  | .nullsLast => b.orderWithNulls k.ref.sql k.direction true

namespace Statement

def resultSql : Result → String
  | .rows => rootAlias ++ ".*"
  | .count => "COUNT(*)"

def conditionSql (b : Backend) : Option Condition → String
  | none => ""
  | some c => " WHERE " ++ c.sql b

def orderSql (b : Backend) : List SortKey → String
  | [] => ""
  | keys => " ORDER BY " ++ Text.joined ", " (keys.map (SortKey.sql b))

def windowSql (b : Backend) : Option WindowParams → String
  | none => ""
  | some w => " " ++ limitOffset (b.placeholder w.limit) (b.placeholder w.offset)

def sql (b : Backend) (s : Statement) : String :=
  "SELECT " ++ resultSql s.result ++ " FROM " ++ quoteIdentifier s.table ++ " " ++
    rootAlias ++ joinsSql 1 s.joins ++ conditionSql b s.condition ++ orderSql b s.order ++
    windowSql b s.window

end Statement
end Sql
end TableSearch
