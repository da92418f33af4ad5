import CubeSql.Document.Value
import CubeSql.Request.Vocabulary

/-!
# Expressions of a request

What a field is computed from: an expression over columns of the request's tables. A column that names no
table belongs to the base table.
-/

namespace CubeSql

/-- A function of the values of one row. -/
inductive Function where
  /-- Rounds a date down to a unit of time. -/
  | dateTrunc (grain : TimeGrain)
  /-- Lower case. -/
  | lower
  /-- Upper case. -/
  | upper
  /-- The first argument that is not absent. -/
  | coalesce
  /-- The arguments joined to one text. -/
  | concat
  /-- The first argument, or nothing where it equals the second. -/
  | nullIf
  /-- Conversion to a type of the database, given by its name there. -/
  | cast (dataType : String)
deriving DecidableEq, Repr, Inhabited

/-- An expression over columns. -/
inductive Expr where
  /-- A column, of the named table or of the base table. -/
  | column (table : Option String) (name : String)
  /-- A constant. -/
  | literal (value : Literal)
  /-- A function of one row. -/
  | call (function : Function) (args : List Expr)
  /-- An aggregate over a group. -/
  | aggregate (aggregation : Aggregation) (arg : Expr)
  /-- The result of the first branch whose condition holds; each branch is a condition and a result. -/
  | case (branches : List (Expr × Expr)) (otherwise : Expr)
  /-- An operator between two expressions. -/
  | binary (op : BinaryOp) (left right : Expr)
deriving Inhabited

namespace Expr

/-- A constant with the given value. -/
def ofValue (v : Value) : Expr := .literal (.ofValue v)

/-- The sum of an expression over a group. -/
def sum (arg : Expr) : Expr := .aggregate .sum arg

/-- The column that a text names: `table.column`, split at the first point, or a column alone. -/
def ofPath (path : String) : Expr :=
  let table := path.toList.takeWhile (· ≠ '.')
  match path.toList.drop table.length with
  | _ :: name => .column (some (String.ofList table)) (String.ofList name)
  | [] => .column none path

mutual

/-- Whether the expression holds an aggregate anywhere. -/
def isAggregate : Expr → Bool
  | .column _ _ => false
  | .literal _ => false
  | .call _ args => anyAggregate args
  | .aggregate _ _ => true
  | .case branches otherwise => anyBranchAggregate branches || isAggregate otherwise
  | .binary _ left right => isAggregate left || isAggregate right

/-- Whether one of several expressions holds an aggregate. -/
def anyAggregate : List Expr → Bool
  | [] => false
  | e :: es => isAggregate e || anyAggregate es

/-- Whether one of several branches holds an aggregate. -/
def anyBranchAggregate : List (Expr × Expr) → Bool
  | [] => false
  | (condition, result) :: branches =>
    isAggregate condition || isAggregate result || anyBranchAggregate branches

end

/-- The parts that are joined by the outermost conjunctions, from left to right. -/
def conjuncts : Expr → List Expr
  | .binary .and left right => conjuncts left ++ conjuncts right
  | e => [e]

mutual

/-- Expressions are the same when they have the same parts. -/
def same : Expr → Expr → Bool
  | .column t c, .column t' c' => t == t' && c == c'
  | .literal v, .literal v' => v.same v'
  | .call f args, .call f' args' => f == f' && sameAll args args'
  | .aggregate a arg, .aggregate a' arg' => a == a' && same arg arg'
  | .case bs e, .case bs' e' => sameBranches bs bs' && same e e'
  | .binary op l r, .binary op' l' r' => op == op' && same l l' && same r r'
  | _, _ => false

/-- Lists of expressions are the same when their items are, one by one. -/
def sameAll : List Expr → List Expr → Bool
  | [], [] => true
  | e :: es, e' :: es' => same e e' && sameAll es es'
  | _, _ => false

/-- Lists of branches are the same when their conditions and results are, one by one. -/
def sameBranches : List (Expr × Expr) → List (Expr × Expr) → Bool
  | [], [] => true
  | (c, r) :: bs, (c', r') :: bs' => same c c' && same r r' && sameBranches bs bs'
  | _, _ => false

end

end Expr

end CubeSql
