import CubeSql.Plan.Comparison
import CubeSql.Settings

/-!
# Statements

The queries of a request's statements. A statement is built for a list of collapsed dimensions, whose
values are replaced by the totals marker; the base statement collapses none.

Without comparisons a statement is the base query. Otherwise the base query stands as `base` in a query
around it, which selects its columns again and joins a comparison query for every reference. A comparison
query groups by the declared dimensions only: splits, subtotals and conditions on groups do not reach it.
-/

namespace CubeSql

/-- A request resolved for building its statements. -/
structure Plan where
  /-- What is selected. -/
  selection : Selection
  /-- The columns of the base query, ordered and grouped. -/
  grouping : Grouping
  /-- The references, bound to their dimensions. -/
  comparisons : List Comparison
  /-- The settings. -/
  settings : Settings
deriving Inhabited

namespace Plan

/-- The alias of the base query inside a compared statement. -/
def baseAlias : String := "base"

/-- The declared columns, ordered for the comparison queries. -/
def declared (p : Plan) : Grouping := .declared p.selection.dimensions

/-- The select item of a dimension column: the totals marker if it is collapsed. -/
def dimensionItem (p : Plan) (collapsed : List String) (d : DimensionColumn) : Sql.SelectItem :=
  ⟨if d.key ∈ collapsed then .literal (.text p.settings.totalsMarker) else d.expr, some d.aliasName⟩

/-- The select list of a query: its dimension columns and all metrics. -/
def items (p : Plan) (collapsed : List String) (columns : List DimensionColumn) : List Sql.SelectItem :=
  columns.map (p.dimensionItem collapsed) ++ p.selection.metrics.map MetricColumn.item

/-- The base query. -/
def baseQuery (p : Plan) (collapsed : List String) : Sql.Query where
  distinct := false
  items := p.items collapsed p.grouping.columns
  source := p.selection.scope.baseSource
  joins := p.selection.joins
  restrictions := p.selection.restrictions.rows.map Restriction.predicate
  groups := p.grouping.rollupEntries
  having := p.selection.restrictions.groups
  order := p.grouping.orderEntries none
  limit := p.selection.limit
  offset := p.selection.offset

/-- The query of a comparison. -/
def comparisonQuery (p : Plan) (collapsed : List String) (c : Comparison) : Sql.Query where
  distinct := false
  items := p.items collapsed p.declared.columns
  source := p.selection.scope.baseSource
  joins := p.selection.joins
  restrictions := p.selection.restrictions.rows.map c.predicate
  groups := Grouping.plainEntries p.declared.grouped
  having := []
  order := []
  limit := none
  offset := none

/-- The conditions that join a comparison: its anchor, moved back unless it is collapsed, meets the base
query's anchor, and all other declared dimensions are equal. -/
def joinCondition (p : Plan) (collapsed : List String) (c : Comparison) : List Sql.Expr :=
  let compared := Sql.Expr.column (some c.name) c.anchor.aliasName
  let others := p.declared.columns.filter (·.key != c.anchor.key)
  .eq (.column (some baseAlias) c.anchor.aliasName)
      (if c.anchor.key ∈ collapsed then compared else c.shift compared)
    :: others.map fun d => .eq (.column (some baseAlias) d.aliasName) (.column (some c.name) d.aliasName)

/-- The join of a comparison. -/
def comparisonJoin (p : Plan) (collapsed : List String) (c : Comparison) : Sql.QueryJoin :=
  ⟨p.settings.referenceJoin.kind, .derived (p.comparisonQuery collapsed c) c.name,
    p.joinCondition collapsed c⟩

/-- The columns that a comparison adds: its anchor, and what it shows of every metric. -/
def comparisonItems (p : Plan) (c : Comparison) : List Sql.SelectItem :=
  ⟨.column (some c.name) c.anchor.aliasName, some (c.columnAlias c.anchor.aliasName)⟩ ::
    p.selection.metrics.map fun m =>
      ⟨Comparison.transform c.reference.modifier p.settings.guardsDivision
        (.column (some baseAlias) m.aliasName) (.column (some c.name) m.aliasName),
        some (c.columnAlias m.aliasName)⟩

/-- The column of the base query under an alias, selected again. -/
def baseItem (item : Sql.SelectItem) : Option Sql.SelectItem :=
  item.aliasName.map fun aliasName => ⟨.column (some baseAlias) aliasName, some aliasName⟩

/-- The query that joins the comparisons to the base query. -/
def comparedQuery (p : Plan) (collapsed : List String) : Sql.Query where
  distinct := false
  items := (p.baseQuery collapsed).items.filterMap baseItem ++ p.comparisons.flatMap p.comparisonItems
  source := .derived (p.baseQuery collapsed) baseAlias
  joins := p.comparisons.map (p.comparisonJoin collapsed)
  restrictions := []
  groups := []
  having := []
  order := p.grouping.orderEntries (some baseAlias)
  limit := none
  offset := none

/-- The query of the statement that collapses the given dimensions. -/
def query (p : Plan) (collapsed : List String) : Sql.Query :=
  if p.comparisons.isEmpty then p.baseQuery collapsed else p.comparedQuery collapsed

/-! ## Resolving a request -/

/-- The aliases of the columns of every statement. -/
def outputAliases (p : Plan) : List String :=
  p.grouping.columns.map DimensionColumn.aliasName ++ p.selection.metrics.map MetricColumn.aliasName ++
    p.comparisons.flatMap fun c =>
      c.columnAlias c.anchor.aliasName :: p.selection.metrics.map fun m => c.columnAlias m.aliasName

/-- Resolves a request: what it selects, its splits, its rollup groups and its references, in this order;
then the columns must have different aliases. -/
def ofRequest (r : Request) (settings : Settings) : Except Error Plan := do
  let selection ← Selection.ofRequest r
  let columns ← SplitColumns.ofSplits selection.scope selection.dimensions selection.restrictions.splits
  let grouping ← Grouping.ofRollup columns r.rollup
  let comparisons ← Comparison.bindAll selection.dimensions [] r.references
  let plan : Plan := ⟨selection, grouping, comparisons, settings⟩
  if let some aliasName := firstRepeated? [] plan.outputAliases then throw (.duplicateAlias aliasName)
  return plan

end Plan

end CubeSql
