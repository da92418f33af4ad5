import CubeSql.Sql.Expr

/-!
# SQL queries

The clauses of a SELECT statement. Queries nest: what a query selects from, or joins, is a table or a
query of its own.
-/

namespace CubeSql.Sql

/-- An expression of a select list, under an alias or not. -/
structure SelectItem where
  /-- The expression. -/
  expr : Expr
  /-- Its alias. -/
  aliasName : Option String
deriving Inhabited

/-- How two tables are joined. -/
inductive JoinKind where
  | inner | left | right | full
deriving DecidableEq, Repr, Inhabited

/-- The SQL spelling of a join. -/
def JoinKind.keyword : JoinKind → String
  | inner => "JOIN" | left => "LEFT JOIN" | right => "RIGHT JOIN" | full => "FULL OUTER JOIN"

/-- A join with a source of type `σ`. -/
structure JoinOf (σ : Type) where
  /-- How the source is joined. -/
  kind : JoinKind
  /-- What is joined. -/
  source : σ
  /-- The conditions, all of which must hold. -/
  on : List Expr
deriving Inhabited

/-- An entry of a GROUP BY clause. -/
inductive GroupItem where
  /-- An expression. -/
  | expr (e : Expr)
  /-- Subtotals: each argument is one expression or several that are rolled up together. -/
  | rollup (args : List (List Expr))
deriving Inhabited

/-- An entry of an ORDER BY clause. -/
structure OrderItem where
  /-- The expression. -/
  expr : Expr
  /-- The direction. -/
  direction : SortDirection
deriving Inhabited

/-- The clauses of a query over sources of type `σ`. -/
structure Select (σ : Type) where
  /-- Whether equal rows are returned once. -/
  distinct : Bool
  /-- What is selected. -/
  items : List SelectItem
  /-- What is selected from. -/
  source : σ
  /-- What is joined to it. -/
  joins : List (JoinOf σ)
  /-- The conditions on rows. -/
  restrictions : List Expr
  /-- What is grouped by. -/
  groups : List GroupItem
  /-- The conditions on groups. -/
  having : List Expr
  /-- What is sorted by. -/
  order : List OrderItem
  /-- How many rows to return at most. -/
  limit : Option UInt64
  /-- How many rows to leave out first. -/
  offset : Option UInt64
deriving Inhabited

/-- What a query selects from. -/
inductive Source where
  /-- A table, under an alias or not. -/
  | table (name : String) (aliasName : Option String)
  /-- A query, under an alias. -/
  | derived (query : Select Source) (aliasName : String)
deriving Inhabited

/-- A query. -/
abbrev Query := Select Source

/-- A join of a query. -/
abbrev QueryJoin := JoinOf Source

namespace Source

/-- The alias of a source. -/
def aliasName? : Source → Option String
  | .table _ aliasName => aliasName
  | .derived _ aliasName => some aliasName

end Source

end CubeSql.Sql
