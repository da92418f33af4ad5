import CubeSql.Plan.Split

/-!
# Grouping

The order of the dimension columns, and how they are grouped. Columns that are neither totalled nor rolled
up come first, the others after them, both in their given order; the members of a rollup group stand next
to each other, where the first of them stands. SELECT and ORDER BY follow this order, and so does GROUP BY
but for the rolled up columns, which come last there.
-/

namespace CubeSql

/-- Dimension columns in order, with their rollup groups. -/
structure Grouping where
  /-- The columns. -/
  columns : List DimensionColumn
  /-- The keys of each rollup group, in request order. -/
  groups : List (List String)
deriving Inhabited

namespace Grouping

/-! ## Order -/

/-- Marks the first grouped column under a key as rolled up. -/
def mark (columns : List DimensionColumn) (key : String) : Except Error (List DimensionColumn) :=
  match columns with
  | [] => .error (.unknownDimension key)
  | d :: rest =>
    if d.key = key ∧ d.grouped then
      if d.rollup then .error (.repeatedRollup key) else .ok ({ d with rollup := true } :: rest)
    else do return d :: (← mark rest key)

/-- Marks the columns of a rollup group. -/
def markGroup (columns : List DimensionColumn) (g : RollupGroup) : Except Error (List DimensionColumn) :=
  if g.keys.isEmpty then .error .emptyRollupGroup else g.keys.foldlM mark columns

/-- The unflagged columns, then the flagged ones. -/
def flaggedLast (columns : List DimensionColumn) : List DimensionColumn :=
  columns.filter (!·.isFlagged) ++ columns.filter (·.isFlagged)

/-- The position of the rollup group that a column is rolled up in. -/
def groupOf? (groups : List (List String)) (d : DimensionColumn) : Option Nat :=
  if d.rollup then groups.findIdx? (d.key ∈ ·) else none

/-- Splits columns by the group of the first: the runs of columns that are rolled up together, each at the
place of its first member. A column outside all groups is a run of its own. -/
def runs (groups : List (List String)) : List DimensionColumn → List (List DimensionColumn)
  | [] => []
  | d :: rest =>
    match groupOf? groups d with
    | none => [d] :: runs groups rest
    | some g =>
      have := List.length_filter_le (groupOf? groups · != some g) rest
      (d :: rest.filter (groupOf? groups · == some g)) ::
        runs groups (rest.filter (groupOf? groups · != some g))
termination_by columns => columns.length

/-- The columns with the members of each rollup group next to each other. -/
def gather (groups : List (List String)) (columns : List DimensionColumn) : List DimensionColumn :=
  (runs groups columns).flatten

/-- Orders columns without any rollup groups. -/
def declared (columns : List DimensionColumn) : Grouping := ⟨flaggedLast columns, []⟩

/-- Marks the columns that the rollup groups name, and orders them. -/
def ofRollup (columns : List DimensionColumn) (rollup : List RollupGroup) : Except Error Grouping := do
  let marked ← rollup.foldlM markGroup columns
  let groups := rollup.map RollupGroup.keys
  return ⟨gather groups (flaggedLast marked), groups⟩

/-- The keys of the columns. -/
def keys (g : Grouping) : List String := g.columns.map DimensionColumn.key

/-- The keys of the totalled columns. -/
def totalsKeys (g : Grouping) : List String := (g.columns.filter (·.totals)).map DimensionColumn.key

/-- The keys of the rolled up columns. -/
def rollupKeys (g : Grouping) : List String := (g.columns.filter (·.rollup)).map DimensionColumn.key

/-! ## Clauses -/

/-- The columns that are grouped by. -/
def grouped (g : Grouping) : List DimensionColumn := g.columns.filter (·.grouped)

/-- A reference to a column by its alias. -/
def aliasRef (table : Option String) (d : DimensionColumn) : Sql.Expr := .column table d.aliasName

/-- Plain group entries, one for each column. -/
def plainEntries (columns : List DimensionColumn) : List Sql.GroupItem :=
  columns.map fun d => .expr (aliasRef none d)

/-- The entries of GROUP BY: the columns outside all rollup groups, then the rollup groups, if any. -/
def rollupEntries (g : Grouping) : List Sql.GroupItem :=
  let rolled := g.grouped.filter fun d => (groupOf? g.groups d).isSome
  plainEntries (g.grouped.filter fun d => (groupOf? g.groups d).isNone) ++
    match runs g.groups rolled with
    | [] => []
    | args => [.rollup (args.map fun members => members.map (aliasRef none))]

/-- The entries of ORDER BY, qualified or not. -/
def orderEntries (g : Grouping) (table : Option String) : List Sql.OrderItem :=
  g.grouped.map fun d => ⟨aliasRef table d, .asc⟩

end Grouping

end CubeSql
