import CubeSql.Request.Expr

/-!
# SQL expressions

Expressions as they stand in a statement, with their columns resolved to the aliases of the tables in
scope. `Sql.Expr.columns` is the set of columns that an expression reads, as a list without repeats in a
fixed order, so that equal sets are equal lists.
-/

namespace CubeSql.Sql

/-- An operator between two SQL expressions. -/
inductive Operator where
  /-- An operator of the request language. -/
  | of (op : BinaryOp)
  /-- Comparison with a pattern. -/
  | like
deriving DecidableEq, Repr, Inhabited

namespace Operator

/-- Whether the operator compares two values of one type. -/
def isComparison : Operator → Bool
  | of .eq | of .neq | of .gt | of .gte | of .lt | of .lte => true
  | _ => false

/-- The SQL spelling. -/
def symbol : Operator → String
  | of .add => "+" | of .subtract => "-" | of .multiply => "*" | of .divide => "/" | of .modulo => "%"
  | of .and => "AND" | of .or => "OR"
  | of .eq => "=" | of .neq => "<>" | of .gt => ">" | of .gte => ">=" | of .lt => "<" | of .lte => "<="
  | like => "LIKE"

end Operator

/-- A SQL expression. -/
inductive Expr where
  /-- A column, qualified by a table alias or not. -/
  | column (table : Option String) (name : String)
  /-- A constant. -/
  | literal (value : Value)
  /-- A function of one row. -/
  | call (function : Function) (args : List Expr)
  /-- The result of the first branch whose condition holds; each branch is a condition and a result. -/
  | case (branches : List (Expr × Expr)) (otherwise : Expr)
  /-- An operator between two expressions. -/
  | binary (op : Operator) (left right : Expr)
  /-- An aggregate over a group. -/
  | aggregate (aggregation : Aggregation) (arg : Expr)
  /-- Membership in a list, or its negation. -/
  | inList (subject : Expr) (items : List Expr) (negated : Bool)
  /-- Membership in a closed range. -/
  | between (subject low high : Expr)
  /-- Absence, or its negation. -/
  | isNull (subject : Expr) (negated : Bool)
  /-- A span of time. -/
  | interval (quantity : Int) (unit : TimeGrain)
deriving Inhabited

/-- A column that an expression reads: its qualifier and its name. -/
abbrev ColumnRef := Option String × String

namespace ColumnRef

/-- The order of columns: those without qualifier first, then by qualifier, then by name. -/
def before : ColumnRef → ColumnRef → Bool
  | (none, a), (none, b) => a < b
  | (none, _), (some _, _) => true
  | (some _, _), (none, _) => false
  | (some t, a), (some u, b) => t < u || (t == u && a < b)

/-- Puts a column into a list in ascending order, unless it is there. -/
def insert (c : ColumnRef) : List ColumnRef → List ColumnRef
  | [] => [c]
  | d :: ds => if c.before d then c :: d :: ds else if c = d then d :: ds else d :: insert c ds

end ColumnRef

namespace Expr

/-- An equality. -/
def eq (left right : Expr) : Expr := .binary (.of .eq) left right

/-- A difference. -/
def minus (left right : Expr) : Expr := .binary (.of .subtract) left right

/-- Whether the expression is a constant. -/
def isLiteral : Expr → Bool
  | .literal _ => true
  | _ => false

mutual

/-- The columns in an expression, from left to right, as often as they occur. -/
def occurrences : Expr → List ColumnRef
  | .column table name => [(table, name)]
  | .literal _ => []
  | .call _ args => occurrencesAll args
  | .case branches otherwise => occurrencesBranches branches ++ occurrences otherwise
  | .binary _ left right => occurrences left ++ occurrences right
  | .aggregate _ arg => occurrences arg
  | .inList subject items _ => occurrences subject ++ occurrencesAll items
  | .between subject low high => occurrences subject ++ occurrences low ++ occurrences high
  | .isNull subject _ => occurrences subject
  | .interval _ _ => []

/-- The columns in several expressions. -/
def occurrencesAll : List Expr → List ColumnRef
  | [] => []
  | e :: es => occurrences e ++ occurrencesAll es

/-- The columns in several branches. -/
def occurrencesBranches : List (Expr × Expr) → List ColumnRef
  | [] => []
  | (condition, result) :: branches =>
    occurrences condition ++ occurrences result ++ occurrencesBranches branches

end

/-- The set of columns that an expression reads. -/
def columns (e : Expr) : List ColumnRef := e.occurrences.foldr ColumnRef.insert []

end Expr

end CubeSql.Sql
