import CubeSql.Plan.Condition

/-!
# What a request selects

A request resolved against its tables: every definition is lowered to SQL and every filter is sorted by
what it restricts. The parts are resolved in a fixed order (tables, joins, dimensions, metrics, filters),
which decides which of several errors is reported.
-/

namespace CubeSql

/-- A column to group by. -/
structure DimensionColumn where
  /-- The key under which requests name the column. -/
  key : String
  /-- The type of its values. -/
  dataType : DataType
  /-- What is selected. -/
  expr : Sql.Expr
  /-- Whether it is collapsed in statements of its own. -/
  totals : Bool
  /-- Whether it is among the rolled up columns. -/
  rollup : Bool
  /-- Whether it is grouped by; a column computed from aggregates is only selected. -/
  grouped : Bool
deriving Inhabited

namespace DimensionColumn

/-- The alias of the column. -/
def aliasName (d : DimensionColumn) : String := aliasFor d.key

/-- Whether the column is totalled or rolled up. -/
def isFlagged (d : DimensionColumn) : Bool := d.totals || d.rollup

end DimensionColumn

/-- A column computed for every group. -/
structure MetricColumn where
  /-- The key under which requests name the column. -/
  key : String
  /-- What is selected. -/
  expr : Sql.Expr
deriving Inhabited

namespace MetricColumn

/-- The alias of the column. -/
def aliasName (m : MetricColumn) : String := aliasFor m.key

/-- The select item of the column. -/
def item (m : MetricColumn) : Sql.SelectItem := ⟨m.expr, some m.aliasName⟩

end MetricColumn

/-- A condition on rows; the expression is kept apart from the condition so that a comparison can shift
it. -/
structure Restriction where
  /-- The key of the field. -/
  key : String
  /-- What is compared. -/
  subject : Sql.Expr
  /-- The condition on it. -/
  condition : Condition
deriving Inhabited

/-- The predicate of a restriction. -/
def Restriction.predicate (r : Restriction) : Sql.Expr := r.condition.on r.subject

/-- The filters of a request, sorted by what they restrict. -/
structure Restrictions where
  /-- Conditions on rows. -/
  rows : List Restriction
  /-- Predicates on groups. -/
  groups : List Sql.Expr
  /-- Splits of dimensions, which restrict nothing. -/
  splits : List ResultSet
deriving Inhabited

/-- What a request selects. -/
structure Selection where
  /-- The tables. -/
  scope : Scope
  /-- The joins. -/
  joins : List Sql.QueryJoin
  /-- The declared dimensions, in request order. -/
  dimensions : List DimensionColumn
  /-- The metrics, in request order. -/
  metrics : List MetricColumn
  /-- The filters. -/
  restrictions : Restrictions
  /-- How many rows to return at most. -/
  limit : Option UInt64
  /-- How many rows to leave out first. -/
  offset : Option UInt64
deriving Inhabited

/-- The first item of a list that stands in it before. -/
def firstRepeated? : List String → List String → Option String
  | _, [] => none
  | seen, key :: keys => if key ∈ seen then some key else firstRepeated? (key :: seen) keys

/-- The kind of join that a request asks for. -/
def JoinType.kind : JoinType → Sql.JoinKind
  | inner => .inner | left => .left | right => .right | outer => .full

/-- The join of a request at a position: each conjunct of its condition is a condition of its own. -/
def Join.resolve (scope : Scope) (j : Join) (position : Nat) : Except Error Sql.QueryJoin := do
  let source ← scope.joinSource position
  return ⟨j.joinType.kind, source, ← j.on.conjuncts.mapM (Expr.lower scope)⟩

/-- The column of a declared dimension. -/
def Dimension.resolve (scope : Scope) (d : Dimension) : Except Error DimensionColumn := do
  return ⟨d.key, d.field.dataType, ← d.field.definition.lower scope, d.isTotals, false, true⟩

/-- The column of a metric. -/
def Metric.resolve (scope : Scope) (m : Metric) : Except Error MetricColumn := do
  return ⟨m.key, ← m.field.definition.lower scope⟩

/-- The restriction of a filter on rows. -/
def Filter.resolve (scope : Scope) (f : Filter) : Except Error Restriction := do
  let subject ← f.field.definition.lower scope
  return ⟨f.field.key, subject, ← f.condition⟩

namespace Restrictions

/-- No filters. -/
def empty : Restrictions := ⟨[], [], []⟩

/-- Takes up one more filter. -/
def add (scope : Scope) (parts : Restrictions) : RequestFilter → Except Error Restrictions
  | .dimension f => do return { parts with rows := parts.rows ++ [← f.resolve scope] }
  | .metric f => do return { parts with groups := parts.groups ++ [(← f.resolve scope).predicate] }
  | .resultSet s => return { parts with splits := parts.splits ++ [s] }

end Restrictions

namespace Selection

/-- The keys of a request's dimensions and metrics. -/
def declaredKeys (r : Request) : List String := r.dimensions.map Dimension.key ++ r.metrics.map Metric.key

/-- Resolves a request. It must select something, and its keys must differ. -/
def ofRequest (r : Request) : Except Error Selection := do
  if r.dimensions.isEmpty && r.metrics.isEmpty then throw .emptyProjection
  if let some key := firstRepeated? [] (declaredKeys r) then throw (.duplicateAlias (aliasFor key))
  let scope ← Scope.ofRequest r
  let joins ← r.joins.zipIdx.mapM fun (j, position) => j.resolve scope position
  let dimensions ← r.dimensions.mapM (Dimension.resolve scope)
  let metrics ← r.metrics.mapM (Metric.resolve scope)
  let restrictions ← r.filters.foldlM (Restrictions.add scope) .empty
  return ⟨scope, joins, dimensions, metrics, restrictions, r.limit, r.offset⟩

end Selection

end CubeSql
