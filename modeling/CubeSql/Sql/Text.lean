import CubeSql.Sql.Dialect
import CubeSql.Sql.Query

/-!
# The text of a query

A query is written in a spelling clause by clause. Comparisons stand without spaces, all other operators
in parentheses, so that the text keeps the grouping of its expression.

A group entry names an alias of the select list. Where the dialect cannot group by an alias, the aliased
expression stands in its place, and constants are left out, as there is nothing to group by.
-/

namespace CubeSql.Sql

namespace Expr

mutual

/-- The text of an expression. -/
def text (s : Spelling) : Expr → String
  | .column none name => s.quoteName name
  | .column (some table) name => s.quoteName table ++ "." ++ s.quoteName name
  | .literal v => s.literal v
  | .call f args => s.call f (texts s args)
  | .case branches otherwise =>
    "CASE" ++ String.join (branchTexts s branches) ++ " ELSE " ++ text s otherwise ++ " END"
  | .binary op left right =>
    if op.isComparison then text s left ++ op.symbol ++ text s right
    else "(" ++ text s left ++ " " ++ op.symbol ++ " " ++ text s right ++ ")"
  | .aggregate a arg => s.aggregate a (text s arg)
  | .inList subject items negated =>
    text s subject ++ (if negated then " NOT IN (" else " IN (") ++ ", ".intercalate (texts s items) ++ ")"
  | .between subject low high => text s subject ++ " BETWEEN " ++ text s low ++ " AND " ++ text s high
  | .isNull subject negated => text s subject ++ (if negated then " IS NOT NULL" else " IS NULL")
  | .interval quantity unit => s.interval quantity unit

/-- The texts of several expressions. -/
def texts (s : Spelling) : List Expr → List String
  | [] => []
  | e :: es => text s e :: texts s es

/-- The texts of several branches. -/
def branchTexts (s : Spelling) : List (Expr × Expr) → List String
  | [] => []
  | (condition, result) :: branches =>
    (" WHEN " ++ text s condition ++ " THEN " ++ text s result) :: branchTexts s branches

end

end Expr

/-! ## Grouping -/

/-- The first item of a select list under an alias. -/
def SelectItem.find? (items : List SelectItem) (aliasName : String) : Option SelectItem :=
  items.find? fun item => item.aliasName == some aliasName

/-- What a group entry stands for: the expression under the alias it names, or itself. -/
def groupedExpr (items : List SelectItem) : Expr → Expr
  | .column none name =>
    match SelectItem.find? items name with
    | some item => item.expr
    | none => .column none name
  | e => e

/-- The expression to write for a group entry, if there is anything to group by. -/
def groupTerm? (s : Spelling) (items : List SelectItem) (e : Expr) : Option Expr :=
  if s.groupsByAlias then some e
  else
    let grouped := groupedExpr items e
    if grouped.isLiteral then none else some grouped

/-- The text of an argument of ROLLUP: in parentheses if it has several members. -/
def rollupArgument? : List String → Option String
  | [] => none
  | [member] => some member
  | members => some ("(" ++ ", ".intercalate members ++ ")")

/-- The text of an entry of GROUP BY, if anything of it is left. -/
def GroupItem.text? (s : Spelling) (items : List SelectItem) : GroupItem → Option String
  | .expr e => (groupTerm? s items e).map (Expr.text s)
  | .rollup args =>
    match args.filterMap fun members =>
      rollupArgument? ((members.filterMap (groupTerm? s items)).map (Expr.text s)) with
    | [] => none
    | arguments => some ("ROLLUP(" ++ ", ".intercalate arguments ++ ")")

/-! ## Clauses -/

/-- The text of a select item. -/
def SelectItem.text (s : Spelling) (item : SelectItem) : String :=
  match item.aliasName with
  | some aliasName => item.expr.text s ++ " AS " ++ s.quoteName aliasName
  | none => item.expr.text s

/-- The text of a sort entry. -/
def OrderItem.text (s : Spelling) (item : OrderItem) : String :=
  item.expr.text s ++ match item.direction with | .asc => " ASC" | .desc => " DESC"

/-- A clause with its keyword and entries, if there are any. -/
def clause (keyword separator : String) : List String → String
  | [] => ""
  | entries => keyword ++ separator.intercalate entries

/-- A clause with a count, if there is one. -/
def countClause (keyword : String) : Option UInt64 → String
  | some n => keyword ++ toString n.toNat
  | none => ""

/-- A source under its alias. -/
def aliased (s : Spelling) (source : String) : Option String → String
  | some aliasName => source ++ " " ++ s.quoteName aliasName
  | none => source

/-- The text of a join with the text of its source. -/
def joinText (s : Spelling) (kind : JoinKind) (source : String) (on : List Expr) : String :=
  " " ++ kind.keyword ++ " " ++ source ++ " ON " ++ " AND ".intercalate (on.map (Expr.text s))

/-- The text of a query with the texts of its source and its joins. -/
def selectText {σ : Type} (s : Spelling) (q : Select σ) (source joins : String) : String :=
  "SELECT " ++ (if q.distinct then "DISTINCT " else "") ++ ", ".intercalate (q.items.map (SelectItem.text s))
    ++ " FROM " ++ source ++ joins
    ++ clause " WHERE " " AND " (q.restrictions.map (Expr.text s))
    ++ clause " GROUP BY " ", " (q.groups.filterMap (GroupItem.text? s q.items))
    ++ clause " HAVING " " AND " (q.having.map (Expr.text s))
    ++ clause " ORDER BY " ", " (q.order.map (OrderItem.text s))
    ++ countClause " LIMIT " q.limit ++ countClause " OFFSET " q.offset

mutual

/-- The text of a source. -/
def Source.text (s : Spelling) : Source → String
  | .table name aliasName => aliased s (s.quoteName name) aliasName
  | .derived query aliasName => aliased s ("(" ++ Query.text s query ++ ")") (some aliasName)

/-- The text of a query. -/
def Query.text (s : Spelling) : Select Source → String
  | ⟨distinct, items, source, joins, restrictions, groups, having, order, limit, offset⟩ =>
    selectText s (⟨distinct, items, (), [], restrictions, groups, having, order, limit, offset⟩ : Select Unit)
      (Source.text s source) (joinsText s joins)

/-- The texts of several joins, one after another. -/
def joinsText (s : Spelling) : List (JoinOf Source) → String
  | [] => ""
  | ⟨kind, source, on⟩ :: joins => joinText s kind (Source.text s source) on ++ joinsText s joins

end

end CubeSql.Sql
