import CubeSql.Document.Reading
import CubeSql.Json.Document
import CubeSql.Request.Basic
import CubeSql.Request.ExprForm

/-!
# Reading requests

Readers for requests and their parts. Each record is read into a draft in the written order of its
members; a finished draft is checked for what is missing, and only then for content that is refused for a
reason of its own, such as a blank key.

Filters and rollup groups are settled before they are read: a fault anywhere inside such a part comes
before what its content would be refused for.
-/

namespace CubeSql

/-- What a finished draft must hold. -/
def Reading.required {α : Type} (place : Option α) : Reading α := Reading.ofOption place

/-! ## Fields -/

namespace Field

/-- A field that is being read. -/
structure Draft where
  /-- The key. -/
  key : Option String
  /-- The type of the values. -/
  dataType : Option DataType
  /-- What the values are computed from. -/
  definition : Option Expr
deriving Inhabited

/-- The draft before anything is read. -/
def Draft.empty : Draft := ⟨none, none, none⟩

/-- The members of a field. -/
def shape : Node.Shape := ⟨["key", "data_type", "definition"], true⟩

/-- Reads one member of a field. -/
def Draft.step (c : Conventions) (d : Draft) (name : String) (n : Node) : Reading Draft :=
  match name with
  | "key" => do return { d with key := ← Node.fill d.key n.readText }
  | "data_type" => do
    return { d with dataType := ← Node.fill d.dataType (n.readChoice c DataType.words) }
  | "definition" => do return { d with definition := ← Node.fill d.definition (Expr.read n) }
  | _ => .malformed

/-- The field of a draft. -/
def Draft.finish (d : Draft) : Reading Field := do
  let key ← Reading.required d.key
  let dataType ← Reading.required d.dataType
  let definition ← Reading.required d.definition
  match Field.make? key dataType definition with
  | some f => return f
  | none => throw (.refused .blankFieldKey)

/-- Reads a field. -/
def read (c : Conventions) (n : Node) : Reading Field := do
  (← n.readRecord c shape (Draft.step c) Draft.empty).finish

end Field

namespace Dimension

/-- A dimension that is being read. -/
structure Draft where
  /-- The members of its field. -/
  field : Field.Draft
  /-- Whether it is totalled. -/
  modifier : Option Modifier
deriving Inhabited

/-- The members of a dimension: those of a field, and the modifier. -/
def shape : Node.Shape := ⟨["key", "data_type", "definition", "modifier"], true⟩

/-- Reads one member of a dimension. -/
def Draft.step (c : Conventions) (d : Draft) (name : String) (n : Node) : Reading Draft :=
  match name with
  | "modifier" => do
    return { d with modifier := ← Node.fill d.modifier (n.readChoice c Modifier.words) }
  | name => do return { d with field := ← d.field.step c name n }

/-- Reads a dimension; without a modifier it is not totalled. -/
def read (c : Conventions) (n : Node) : Reading Dimension := do
  let d ← n.readRecord c shape (Draft.step c) ⟨.empty, none⟩
  return ⟨← d.field.finish, d.modifier.getD .none⟩

end Dimension

/-- Reads a metric: a field. -/
def Metric.read (c : Conventions) (n : Node) : Reading Metric := do return ⟨← Field.read c n⟩

/-! ## Filters -/

namespace Filter

/-- A filter that is being read. -/
structure Draft where
  /-- The field. -/
  field : Option Field
  /-- How it is compared. -/
  op : Option FilterOp
  /-- What it is compared with. -/
  value : Option Literal
deriving Inhabited

/-- The members of a filter. -/
def shape : Node.Shape := ⟨["field", "op", "value"], false⟩

/-- Reads one member of a filter. -/
def Draft.step (c : Conventions) (d : Draft) (name : String) (n : Node) : Reading Draft :=
  match name with
  | "field" => do return { d with field := ← Node.fill d.field (Field.read c n) }
  | "op" => do return { d with op := ← Node.fill d.op (n.readChoice c FilterOp.words) }
  | "value" => do return { d with value := ← Node.fill d.value (n.readValue.map Literal.ofValue) }
  | _ => .malformed

/-- Reads a filter; without a value it compares with the absent one. -/
def read (c : Conventions) (n : Node) : Reading Filter := do
  let d ← n.readRecord c shape (Draft.step c) ⟨none, none, none⟩
  return ⟨← Reading.required d.field, ← Reading.required d.op, d.value.getD .null⟩

end Filter

namespace ResultSet

/-- A split that is being read. -/
structure Draft where
  /-- What the set is. -/
  filter : Option Filter
  /-- What stands for the values of the set. -/
  setLabel : Option (Option String)
  /-- What stands for all other values. -/
  complementLabel : Option (Option String)
  /-- Whether the split stands in place of the dimension. -/
  replaces : Option Bool
  /-- Whether all other values are one group. -/
  groupsComplement : Option Bool
deriving Inhabited

/-- The members of a split. -/
def shape : Node.Shape :=
  ⟨["filter", "set_label", "complement_label", "will_replace_referenced_dimension",
    "will_group_complement"], false⟩

/-- Reads one member of a split. -/
def Draft.step (c : Conventions) (d : Draft) (name : String) (n : Node) : Reading Draft :=
  match name with
  | "filter" => do return { d with filter := ← Node.fill d.filter (Filter.read c n) }
  | "set_label" => do
    return { d with setLabel := ← Node.fill d.setLabel (n.readOptional Node.readText) }
  | "complement_label" => do
    return { d with complementLabel := ← Node.fill d.complementLabel (n.readOptional Node.readText) }
  | "will_replace_referenced_dimension" => do
    return { d with replaces := ← Node.fill d.replaces n.readBool }
  | "will_group_complement" => do
    return { d with groupsComplement := ← Node.fill d.groupsComplement n.readBool }
  | _ => .malformed

/-- Reads a split; it is unlabelled, replaces the dimension and groups the complement unless it says
otherwise. -/
def read (c : Conventions) (n : Node) : Reading ResultSet := do
  let d ← n.readRecord c shape (Draft.step c) ⟨none, none, none, none, none⟩
  return ⟨← Reading.required d.filter, d.setLabel.getD none, d.complementLabel.getD none,
    d.replaces.getD true, d.groupsComplement.getD true⟩

end ResultSet

namespace RequestFilter

/-- Whether a key is the one that says of what kind a filter is. -/
def isKindKey (key : Node) : Bool := key.spelling? == some "kind"

/-- The kind of a settled filter, and the filter without it. -/
def splitKind : Node → Reading (String × Node)
  | .record members =>
    match members.filter fun m => isKindKey m.1 with
    | [(_, kind)] => do
      return (← kind.readText, .record (members.filter fun m => !isKindKey m.1))
    | _ => .malformed
  | .list (kind :: items) => do return (← kind.readText, .list items)
  | _ => .malformed

/-- Reads a filter of a request. -/
def read (n : Node) : Reading RequestFilter := do
  let (kind, content) ← splitKind (← Reading.ofOption n.settled?)
  match kind with
  | "dimension" => return .dimension (← Filter.read .settled content)
  | "metric" => return .metric (← Filter.read .settled content)
  | "result_set" => return .resultSet (← ResultSet.read .settled content)
  | _ => .malformed

end RequestFilter

/-! ## References, joins and rollup groups -/

namespace Reference

/-- A reference that is being read. -/
structure Draft where
  /-- The name. -/
  name : Option String
  /-- The key of the dimension. -/
  dimension : Option String
deriving Inhabited

/-- The members of a reference. -/
def shape : Node.Shape := ⟨["reference", "dimension"], false⟩

/-- Reads one member of a reference. -/
def Draft.step (d : Draft) (name : String) (n : Node) : Reading Draft :=
  match name with
  | "reference" => do return { d with name := ← Node.fill d.name n.readText }
  | "dimension" => do return { d with dimension := ← Node.fill d.dimension n.readText }
  | _ => .malformed

/-- Reads a reference. -/
def read (c : Conventions) (n : Node) : Reading Reference := do
  let d ← n.readRecord c shape Draft.step ⟨none, none⟩
  let name ← Reading.required d.name
  let dimension ← Reading.required d.dimension
  (parse name dimension).mapError .refused

end Reference

namespace Join

/-- A join that is being read. -/
structure Draft where
  /-- The name of the table. -/
  table : Option String
  /-- The condition. -/
  on : Option Expr
  /-- Which rows are kept without a match. -/
  joinType : Option JoinType
deriving Inhabited

/-- The members of a join. -/
def shape : Node.Shape := ⟨["table", "on", "join_type"], false⟩

/-- Reads one member of a join. -/
def Draft.step (c : Conventions) (d : Draft) (name : String) (n : Node) : Reading Draft :=
  match name with
  | "table" => do return { d with table := ← Node.fill d.table n.readText }
  | "on" => do return { d with on := ← Node.fill d.on (Expr.read n) }
  | "join_type" => do
    return { d with joinType := ← Node.fill d.joinType (n.readChoice c JoinType.words) }
  | _ => .malformed

/-- Reads a join. -/
def read (c : Conventions) (n : Node) : Reading Join := do
  let d ← n.readRecord c shape (Draft.step c) ⟨none, none, none⟩
  return ⟨← Reading.required d.table, ← Reading.required d.on, ← Reading.required d.joinType⟩

end Join

/-- Reads a rollup group: a key, or a list of keys. -/
def RollupGroup.read (n : Node) : Reading RollupGroup := do
  match ← Reading.ofOption n.settled? with
  | .list keys => return .composite (← keys.mapM Node.readText)
  | n => return .single (← n.readText)

/-! ## Requests -/

namespace Request

/-- A request that is being read. -/
structure Draft where
  /-- The name of the base table. -/
  table : Option String
  /-- Further tables. -/
  joins : Option (List Join)
  /-- What to group by. -/
  dimensions : Option (List Dimension)
  /-- What to compute. -/
  metrics : Option (List Metric)
  /-- What to restrict or split. -/
  filters : Option (List RequestFilter)
  /-- What to compare with. -/
  references : Option (List Reference)
  /-- The arguments of the subtotals. -/
  rollup : Option (List RollupGroup)
  /-- How many rows to return at most. -/
  limit : Option (Option UInt64)
  /-- How many rows to leave out first. -/
  offset : Option (Option UInt64)
deriving Inhabited

/-- The draft before anything is read. -/
def Draft.empty : Draft := ⟨none, none, none, none, none, none, none, none, none⟩

/-- The members of a request. -/
def shape : Node.Shape :=
  ⟨["table", "joins", "dimensions", "metrics", "filters", "references", "rollup", "limit", "offset"], false⟩

/-- Reads one member of a request. -/
def Draft.step (c : Conventions) (d : Draft) (name : String) (n : Node) : Reading Draft :=
  match name with
  | "table" => do return { d with table := ← Node.fill d.table n.readText }
  | "joins" => do return { d with joins := ← Node.fill d.joins (n.readList c (Join.read c)) }
  | "dimensions" => do
    return { d with dimensions := ← Node.fill d.dimensions (n.readList c (Dimension.read c)) }
  | "metrics" => do return { d with metrics := ← Node.fill d.metrics (n.readList c (Metric.read c)) }
  | "filters" => do return { d with filters := ← Node.fill d.filters (n.readList c RequestFilter.read) }
  | "references" => do
    return { d with references := ← Node.fill d.references (n.readList c (Reference.read c)) }
  | "rollup" => do return { d with rollup := ← Node.fill d.rollup (n.readList c RollupGroup.read) }
  | "limit" => do return { d with limit := ← Node.fill d.limit (n.readOptional Node.readCount) }
  | "offset" => do return { d with offset := ← Node.fill d.offset (n.readOptional Node.readCount) }
  | _ => .malformed

/-- Reads a request. Only the table is required; but a list must have an item for every member. -/
def read (c : Conventions) (n : Node) : Reading Request := do
  let d ← n.readRecord c shape (Draft.step c) .empty
  if n.isList && d.offset.isNone then .malformed
  else
    return ⟨← Reading.required d.table, d.joins.getD [], d.dimensions.getD [], d.metrics.getD [],
      d.filters.getD [], d.references.getD [], d.rollup.getD [], d.limit.getD none, d.offset.getD none⟩

/-- Reads a request from a whole document; what follows its tree is looked at last. -/
def ofDocument (c : Conventions) (document : Document) : Reading Request := do
  let r ← read c document.root
  if document.endsCleanly then return r else .malformed

/-- Reads a request from a JSON text. -/
def ofJson (text : String) : Reading Request := ofDocument .json (.ofJson text)

/-- Reads a request from a free-form value. -/
def ofValue (v : Value) : Reading Request := read .value (.ofValue v)

end Request

end CubeSql
