import CubeSql.Request.Basic
import CubeSql.Request.ExprForm

/-!
# The written form of requests

Requests and their parts as free-form values. Every member is written, the absent ones as the absent
value, and the members of an object ascend.
-/

namespace CubeSql

/-- A number that may be absent. -/
def Value.optionalCount : Option UInt64 → Value
  | some n => .int n.toNat
  | none => .null

/-- The free-form value of a field. -/
def Field.toValue (f : Field) : Value :=
  .object [("data_type", .text f.dataType.name), ("definition", f.definition.toValue), ("key", .text f.key)]

/-- The free-form value of a dimension. -/
def Dimension.toValue (d : Dimension) : Value :=
  .object [("data_type", .text d.field.dataType.name), ("definition", d.field.definition.toValue),
    ("key", .text d.field.key), ("modifier", .text d.modifier.name)]

/-- The free-form value of a metric: that of its field. -/
def Metric.toValue (m : Metric) : Value := m.field.toValue

/-- The free-form value of a filter. -/
def Filter.toValue (f : Filter) : Value :=
  .object [("field", f.field.toValue), ("op", .text f.op.name), ("value", f.value.value)]

/-- The free-form value of a split. -/
def ResultSet.toValue (s : ResultSet) : Value :=
  .object [("complement_label", .optionalText s.complementLabel), ("filter", s.filter.toValue),
    ("set_label", .optionalText s.setLabel), ("will_group_complement", .bool s.groupsComplement),
    ("will_replace_referenced_dimension", .bool s.replaces)]

/-- A filter as a member of a request: its own members and its kind. -/
def Filter.taggedValue (kind : String) (f : Filter) : Value :=
  .object [("field", f.field.toValue), ("kind", .text kind), ("op", .text f.op.name),
    ("value", f.value.value)]

/-- The free-form value of a filter of a request: the members of what it holds, and its kind. -/
def RequestFilter.toValue : RequestFilter → Value
  | .dimension f => f.taggedValue "dimension"
  | .metric f => f.taggedValue "metric"
  | .resultSet s =>
    .object [("complement_label", .optionalText s.complementLabel), ("filter", s.filter.toValue),
      ("kind", .text "result_set"), ("set_label", .optionalText s.setLabel),
      ("will_group_complement", .bool s.groupsComplement),
      ("will_replace_referenced_dimension", .bool s.replaces)]

/-- The free-form value of a join. -/
def Join.toValue (j : Join) : Value :=
  .object [("join_type", .text j.joinType.name), ("on", j.on.toValue), ("table", .text j.table)]

/-- The free-form value of a reference. -/
def Reference.toValue (r : Reference) : Value :=
  .object [("dimension", .text r.dimension), ("reference", .text r.name)]

/-- The free-form value of a rollup group. -/
def RollupGroup.toValue : RollupGroup → Value
  | single key => .text key
  | composite keys => .texts keys

/-- The free-form value of a request. -/
def Request.toValue (r : Request) : Value :=
  .object [("dimensions", .array (r.dimensions.map Dimension.toValue)),
    ("filters", .array (r.filters.map RequestFilter.toValue)),
    ("joins", .array (r.joins.map Join.toValue)),
    ("limit", .optionalCount r.limit),
    ("metrics", .array (r.metrics.map Metric.toValue)),
    ("offset", .optionalCount r.offset),
    ("references", .array (r.references.map Reference.toValue)),
    ("rollup", .array (r.rollup.map RollupGroup.toValue)),
    ("table", .text r.table)]

end CubeSql
