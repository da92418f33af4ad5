import CubeSql.Plan.Statement

/-!
# Compiled requests

The statements of a request, and what is needed to make sense of their rows. The first statement is the
base statement. For the totalled dimensions `d1, …, dk`, in output order, statement `i` collapses
`di, …, dk`. All statements are run and their rows concatenated.
-/

namespace CubeSql

/-- The role of a statement. -/
inductive StatementKind where
  /-- The rows themselves. -/
  | base
  /-- Totals, in which the dimensions of the given keys hold the totals marker. -/
  | totals (dimensions : List String)
deriving DecidableEq, Repr, Inhabited

namespace StatementKind

/-- The free-form value of a role. -/
def toValue : StatementKind → Value
  | base => .object [("kind", .text "base")]
  | totals dimensions => .object [("dimensions", .texts dimensions), ("kind", .text "totals")]

end StatementKind

/-- A statement. -/
structure Statement where
  /-- Its role. -/
  kind : StatementKind
  /-- Its query. -/
  query : Sql.Query
deriving Inhabited

/-- A row of a result: the values of its columns, by their aliases. -/
abbrev Row := List (String × Value)

/-- A compiled request. -/
structure Compilation where
  /-- The statements, in the order in which they are run. -/
  statements : List Statement
  /-- The keys of the dimension columns, as selected. -/
  dimensionKeys : List String
  /-- The keys of the metrics. -/
  metricKeys : List String
  /-- The keys of the rolled up dimensions, which are absent in subtotals. -/
  rollupKeys : List String
  /-- The references, as requested. -/
  references : List Reference
  /-- What stands for the values of a collapsed dimension. -/
  totalsMarker : String
deriving Inhabited

namespace Compilation

/-- The statement of a plan that collapses the given dimensions. -/
def totalsStatement (p : Plan) (collapsed : List String) : Statement :=
  ⟨.totals collapsed, p.query collapsed⟩

/-- The lists of collapsed dimensions: every list of the last totalled ones, the longest first. -/
def collapses : List String → List (List String)
  | [] => []
  | key :: keys => (key :: keys) :: collapses keys

/-- The statements of a plan. -/
def statementsOf (p : Plan) : List Statement :=
  ⟨.base, p.query []⟩ :: (collapses p.grouping.totalsKeys).map (totalsStatement p)

/-- Compiles a request. -/
def ofRequest (r : Request) (settings : Settings) : Except Error Compilation := do
  let p ← Plan.ofRequest r settings
  return ⟨statementsOf p, p.grouping.keys, p.selection.metrics.map MetricColumn.key,
    p.grouping.rollupKeys, r.references, settings.totalsMarker⟩

/-- The texts of the statements. -/
def texts (c : Compilation) (d : Sql.Dialect) : List String :=
  c.statements.map fun s => Sql.Query.text d.spelling s.query

/-- The base statement. -/
def base? (c : Compilation) : Option Statement := c.statements.head?

/-- The totals statements. -/
def totals (c : Compilation) : List Statement := c.statements.tail

/-- Whether a column of a row says that the row is a total: it holds the totals marker, or it is rolled up
and absent. -/
def marksTotal (c : Compilation) (row : Row) (key : String) : Bool :=
  match row.lookup (aliasFor key) with
  | some (.scalar .null) => key ∈ c.rollupKeys
  | some (.scalar (.text s)) => s == c.totalsMarker
  | _ => false

/-- Whether a row is a total. -/
def isTotalsRow (c : Compilation) (row : Row) : Bool := c.dimensionKeys.any (c.marksTotal row)

end Compilation

/-! ## Choices of a dimension -/

/-- The query for the distinct values of a request's dimensions, under its conditions on rows. References,
subtotals and splits play no part in it, nor do metrics and conditions on groups, but these must be resolvable. -/
def choicesQuery (r : Request) : Except Error Sql.Query := do
  if r.dimensions.isEmpty then throw .emptyProjection
  let selection ← Selection.ofRequest r
  return {
    distinct := true
    items := selection.dimensions.map fun d => ⟨d.expr, some d.aliasName⟩
    source := selection.scope.baseSource
    joins := selection.joins
    restrictions := selection.restrictions.rows.map Restriction.predicate
    groups := []
    having := []
    order := []
    limit := selection.limit
    offset := selection.offset }

end CubeSql
