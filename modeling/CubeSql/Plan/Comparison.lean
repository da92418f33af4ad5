import CubeSql.Plan.Grouping

/-!
# Comparisons

A reference bound to the dimension along which it looks back. The compared values come from a query of
their own, which is joined to the base query where its dates, moved forward, meet the base query's dates.
-/

namespace CubeSql

/-- A reference bound to a date dimension. -/
structure Comparison where
  /-- The reference. -/
  reference : Reference
  /-- The declared column of its dimension. -/
  anchor : DimensionColumn
deriving Inhabited

namespace Comparison

/-- The name of the comparison, which is also the alias of its query. -/
def name (c : Comparison) : String := c.reference.name

/-- The span of time between the compared periods. -/
def interval (c : Comparison) : Sql.Expr :=
  .interval c.reference.kind.interval.1 c.reference.kind.interval.2

/-- An expression less the span of time. -/
def shift (c : Comparison) (e : Sql.Expr) : Sql.Expr := .minus e c.interval

/-- Whether a restriction is on the period of the anchor: on its field, or on an expression over the same
columns. -/
def constrainsAnchor (c : Comparison) (r : Restriction) : Bool :=
  r.key == c.anchor.key ||
    (!c.anchor.expr.columns.isEmpty && r.subject.columns == c.anchor.expr.columns)

/-- The predicate of a restriction on the compared rows: one on the anchor's period is moved with it. -/
def predicate (c : Comparison) (r : Restriction) : Sql.Expr :=
  if c.constrainsAnchor r then r.condition.on (c.shift r.subject) else r.predicate

/-- The alias of the compared column of an alias. -/
def columnAlias (c : Comparison) (aliasName : String) : String := aliasName ++ "_" ++ c.name

/-- Binds a reference to its dimension among the declared columns. -/
def bind (declared : List DimensionColumn) (r : Reference) : Except Error Comparison :=
  match declared.find? (·.key == r.dimension) with
  | none => .error (.unknownDimension r.dimension)
  | some anchor =>
    if anchor.dataType = .date then .ok ⟨r, anchor⟩
    else .error (.incompatibleReference r.name anchor.key anchor.dataType)

/-- Binds references one by one; `seen` are the names of those before. No two may share a name. -/
def bindAll (declared : List DimensionColumn) : List String → List Reference → Except Error (List Comparison)
  | _, [] => .ok []
  | seen, r :: rest => do
    if r.name ∈ seen then throw (.duplicateAlias r.name)
    let c ← bind declared r
    return c :: (← bindAll declared (r.name :: seen) rest)

/-- What is shown of a compared value: the value itself, the difference to it, or that difference relative
to it. A guarded division by zero is absent. -/
def transform (modifier : ReferenceModifier) (guarded : Bool) (base compared : Sql.Expr) : Sql.Expr :=
  match modifier with
  | .plain => compared
  | .delta => .minus base compared
  | .deltaPercent =>
    let divisor := if guarded then .call .nullIf [compared, .literal (.int 0)] else compared
    .binary (.of .divide) (.minus base compared) divisor

end Comparison

end CubeSql
