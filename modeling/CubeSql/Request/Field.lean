import CubeSql.Request.Expr
import CubeSql.Text.Blank

/-!
# Fields

A field is a keyed, typed expression: the atom from which dimensions, metrics and filters are made. Within
a request the key stands for the field, so fields compare by their keys.
-/

namespace CubeSql

/-- The name under which the column of a key appears in results. -/
def aliasFor (key : String) : String := "$" ++ key

/-- A keyed, typed expression. -/
structure Field where
  /-- The key. -/
  key : String
  /-- The type of the values. -/
  dataType : DataType
  /-- What the values are computed from. -/
  definition : Expr
  /-- No key is blank. -/
  key_not_blank : Text.isBlank key = false

namespace Field

/-- The field of a key, unless the key is blank. -/
def make? (key : String) (dataType : DataType) (definition : Expr) : Option Field :=
  if h : Text.isBlank key = false then some ⟨key, dataType, definition, h⟩ else none

/-- The name of the field's column in results. -/
def aliasName (f : Field) : String := aliasFor f.key

/-- Fields are the same when their keys are. -/
def same (a b : Field) : Bool := a.key == b.key

theorem make?_self (f : Field) : make? f.key f.dataType f.definition = some f := by
  simp [make?, f.key_not_blank]

end Field

/-- A field to group by. -/
structure Dimension where
  /-- The field. -/
  field : Field
  /-- Whether the dimension is totalled. -/
  modifier : Modifier

namespace Dimension

/-- The key of the dimension's field. -/
def key (d : Dimension) : String := d.field.key

/-- A dimension that is only grouped by. -/
def plain (f : Field) : Dimension := ⟨f, .none⟩

/-- A dimension that is also totalled. -/
def totalled (f : Field) : Dimension := ⟨f, .rollup⟩

/-- Whether the dimension is totalled. -/
def isTotals (d : Dimension) : Bool := d.modifier == .rollup

/-- Dimensions are the same when their fields and modifiers are. -/
def same (a b : Dimension) : Bool := a.field.same b.field && a.modifier == b.modifier

end Dimension

/-- A field to compute for every group. -/
structure Metric where
  /-- The field. -/
  field : Field

namespace Metric

/-- The key of the metric's field. -/
def key (m : Metric) : String := m.field.key

/-- Metrics are the same when their fields are. -/
def same (a b : Metric) : Bool := a.field.same b.field

end Metric

end CubeSql
