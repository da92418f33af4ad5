import CubeSql.Request.Field

/-!
# Filters of a request

A filter compares a field with a value. In a request it restricts rows (on a dimension), restricts groups
(on a metric), or splits a dimension into a set and its complement without restricting anything.
-/

namespace CubeSql

/-- A comparison of a field with a value. -/
structure Filter where
  /-- The field. -/
  field : Field
  /-- How it is compared. -/
  op : FilterOp
  /-- What it is compared with: a scalar, or the list that some operators take. -/
  value : Literal

namespace Filter

/-- Filters are the same when their fields, operators and values are. -/
def same (a b : Filter) : Bool := a.field.same b.field && a.op == b.op && a.value.same b.value

end Filter

/-- A filter that splits a dimension into the values that meet it and the others. -/
structure ResultSet where
  /-- What the set is. -/
  filter : Filter
  /-- What stands for the values of the set. -/
  setLabel : Option String
  /-- What stands for all other values. -/
  complementLabel : Option String
  /-- Whether the split stands in place of the dimension, or beside it. -/
  replaces : Bool
  /-- Whether all other values are one group, or keep their own. -/
  groupsComplement : Bool

namespace ResultSet

/-- The split of a filter: without labels, in place of the dimension, all other values one group. -/
def ofFilter (f : Filter) : ResultSet := ⟨f, none, none, true, true⟩

/-- Splits are the same when all their parts are. -/
def same (a b : ResultSet) : Bool :=
  a.filter.same b.filter && a.setLabel == b.setLabel && a.complementLabel == b.complementLabel
    && a.replaces == b.replaces && a.groupsComplement == b.groupsComplement

end ResultSet

/-- The filters of a request. -/
inductive RequestFilter where
  /-- Restricts rows. -/
  | dimension (filter : Filter)
  /-- Restricts groups. -/
  | metric (filter : Filter)
  /-- Splits a dimension. -/
  | resultSet (split : ResultSet)

namespace RequestFilter

/-- Filters of a request are the same when they are of one kind and have the same parts. -/
def same : RequestFilter → RequestFilter → Bool
  | .dimension a, .dimension b => a.same b
  | .metric a, .metric b => a.same b
  | .resultSet a, .resultSet b => a.same b
  | _, _ => false

end RequestFilter

end CubeSql
