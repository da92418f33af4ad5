import CubeSql.Plan.Selection

/-!
# Splitting dimensions

A result-set filter never restricts rows. It makes a column that says for every row whether the row is in
the set: in place of the filtered dimension, or as a column of its own before it. Where the filter is on an
aggregate there is nothing to group by, and the column is only selected.

The filters are applied in their declared order, each to the columns that the earlier ones left.
-/

namespace CubeSql

/-- The key of the column for a set that is described by `text`. -/
def setName (text : String) : String := "set(" ++ text ++ ")"

/-- What stands for the rows outside a set that is described by `text`. -/
def complementName (text : String) : String := "complement(" ++ text ++ ")"

namespace ResultSet

/-- What stands for the set and for its complement: the given labels, or the names made from the
description if neither is given. -/
def labels (s : ResultSet) (text : String) : Option String × Option String :=
  match s.setLabel, s.complementLabel with
  | none, none => (some (setName text), some (complementName text))
  | set, complement => (set, complement)

/-- The expression that splits `subject` by a condition. -/
def splitExpr (s : ResultSet) (text : String) (condition : Condition) (subject : Sql.Expr) : Sql.Expr :=
  let (set, complement) := s.labels text
  let otherwise := if s.groupsComplement then .literal (.optionalText complement) else subject
  .case [(condition.on subject, .literal (.optionalText set))] otherwise

end ResultSet

/-- A column that a split adds under a key of its own. -/
def DimensionColumn.ofSet (text : String) (expr : Sql.Expr) (grouped : Bool) : DimensionColumn :=
  ⟨setName text, .text, expr, false, false, grouped⟩

/-- Columns in which splits stand in place of some dimensions. -/
structure SplitColumns where
  /-- The columns. -/
  columns : List DimensionColumn
  /-- The keys of the dimensions that were replaced. -/
  replaced : List String
deriving Inhabited

namespace SplitColumns

/-- The columns before the first one under a key, and that one with the columns after it. -/
def splitAtKey (key : String) (columns : List DimensionColumn) :
    List DimensionColumn × List DimensionColumn :=
  (columns.takeWhile (·.key != key), columns.dropWhile (·.key != key))

/-- The columns with the expression of the first one under a field's key replaced; without such a column
the field becomes one, at the end. -/
def replace (f : Field) (expr : Sql.Expr) (columns : List DimensionColumn) : List DimensionColumn :=
  match splitAtKey f.key columns with
  | (before, d :: after) => before ++ { d with expr := expr } :: after
  | (before, []) => before ++ [⟨f.key, f.dataType, expr, false, false, true⟩]

/-- The columns with another one before the first one under a key, or at the end. -/
def insertAt (key : String) (new : DimensionColumn) (columns : List DimensionColumn) :
    List DimensionColumn :=
  match splitAtKey key columns with
  | (before, after) => before ++ new :: after

/-- Applies one split. -/
def apply (scope : Scope) (done : SplitColumns) (s : ResultSet) : Except Error SplitColumns := do
  let f := s.filter.field
  let text ← s.filter.describe
  let subject ← f.definition.lower scope
  let expr := s.splitExpr text (← s.filter.condition) subject
  if f.definition.isAggregate then
    return { done with columns := done.columns ++ [.ofSet text expr false] }
  else if s.replaces then
    if f.key ∈ done.replaced then throw (.repeatedReplacement f.key)
    return ⟨replace f expr done.columns, f.key :: done.replaced⟩
  else return { done with columns := insertAt f.key (.ofSet text expr true) done.columns }

/-- Applies all splits to the declared columns. -/
def ofSplits (scope : Scope) (declared : List DimensionColumn) (splits : List ResultSet) :
    Except Error (List DimensionColumn) := do
  return (← splits.foldlM (apply scope) ⟨declared, []⟩).columns

end SplitColumns

end CubeSql
