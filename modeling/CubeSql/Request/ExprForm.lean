import CubeSql.Document.Reading
import CubeSql.Request.Expr

/-!
# The written form of expressions

An expression is written as an object whose member `type` says which form it has, and whose other members
are its parts. It may also be read from a list, the form first and the parts in their declared order, and
from a text, which is the path of a column.

Expressions are read from free-form values with ordered objects, so a member that a text repeats counts
with its last value.
-/

namespace CubeSql

namespace Function

/-- The free-form value of a function. -/
def toValue : Function → Value
  | dateTrunc grain => .object [("date_trunc", .text grain.name)]
  | lower => .text "lower"
  | upper => .text "upper"
  | coalesce => .text "coalesce"
  | concat => .text "concat"
  | nullIf => .text "null_if"
  | cast dataType => .object [("cast", .object [("data_type", .text dataType)])]

/-- Functions that are written by their name alone. -/
def ofName? : String → Option Function :=
  chooseByName (fun f => match f.toValue with | .scalar (.text s) => s | _ => "")
    [lower, upper, coalesce, concat, nullIf]

/-- The written names, in their declared order. -/
def names : List String := ["date_trunc", "lower", "upper", "coalesce", "concat", "null_if", "cast"]

/-- The members of the content of a conversion. -/
def castShape : Node.Shape := ⟨["data_type"], false⟩

/-- Reads the content of a conversion: the name of the type. -/
def readCast (c : Conventions) (n : Node) : Reading Function := do
  if n.isList && !c.contentLists then .malformed
  else
    let step (draft : Option String) (_ : String) (n : Node) := Node.fill draft n.readText
    match ← n.readRecord c castShape step none with
    | some dataType => return cast dataType
    | none => .malformed

/-- Reads a function. -/
def read (c : Conventions) (n : Node) : Reading Function := do
  match ← n.readVariant c names with
  | ("date_trunc", some content) => return dateTrunc (← content.readChoice c TimeGrain.words)
  | ("cast", some content) => readCast c content
  | (name, content) =>
    let f ← Reading.ofOption (ofName? name)
    if Node.isNoContent c content then return f else .malformed

end Function

namespace Expr

/-! ## Writing -/

mutual

/-- The free-form value of an expression. -/
def toValue : Expr → Value
  | .column none name => .object [("column", .text name), ("type", .text "column")]
  | .column (some table) name =>
    .object [("column", .text name), ("table", .text table), ("type", .text "column")]
  | .literal l => .object [("type", .text "literal"), ("value", l.value)]
  | .call f args => .object [("args", .array (toValues args)), ("func", f.toValue), ("type", .text "func")]
  | .aggregate a arg =>
    .object [("agg", .text a.name), ("expr", toValue arg), ("type", .text "aggregate")]
  | .case branches otherwise =>
    .object [("branches", .array (branchValues branches)), ("else_expr", toValue otherwise),
      ("type", .text "case")]
  | .binary op left right =>
    .object [("left", toValue left), ("op", .text op.name), ("right", toValue right),
      ("type", .text "binary")]

/-- The free-form values of several expressions. -/
def toValues : List Expr → List Value
  | [] => []
  | e :: es => toValue e :: toValues es

/-- The free-form values of branches. -/
def branchValues : List (Expr × Expr) → List Value
  | [] => []
  | (condition, result) :: branches =>
    .object [("then", toValue result), ("when", toValue condition)] :: branchValues branches

end

/-! ## Reading -/

/-- The parts of an expression of each form, in their declared order. -/
def partNames : String → Option (List String)
  | "column" => some ["table", "column"]
  | "literal" => some ["value"]
  | "func" => some ["func", "args"]
  | "aggregate" => some ["agg", "expr"]
  | "case" => some ["branches", "else_expr"]
  | "binary" => some ["op", "left", "right"]
  | _ => none

/-- Parts by their names: the members of an object, or the items of a list that is not too long. -/
def parts? (names : List String) : Value → Option (List (String × Value))
  | .object members => some members
  | .array items => if items.length ≤ names.length then some (names.zip items) else none
  | .scalar _ => none

/-- The form of an expression and its parts. -/
def form? : Value → Option (String × List (String × Value))
  | .object members =>
    match members.lookup "type" with
    | some (.scalar (.text form)) => (partNames form).map fun _ => (form, members)
    | _ => none
  | .array (.scalar (.text form) :: items) => do
    let names ← partNames form
    return (form, ← parts? names (.array items))
  | _ => none

/-- The name of a table, which may be absent. -/
def tableName? : Option Value → Option (Option String)
  | none => some none
  | some (.scalar .null) => some none
  | some (.scalar (.text s)) => some (some s)
  | some _ => none

/-- A text. -/
def text? : Value → Option String
  | .scalar (.text s) => some s
  | _ => none

/-- The items of a list. -/
def items? : Value → Option (List Value)
  | .array items => some items
  | _ => none

/-- What reading a settled value yields, if it succeeds. -/
def settled? {α : Type} (read : Conventions → Node → Reading α) (v : Value) : Option α :=
  (read .settled (.ofValue v)).toOption

/-- Reads an expression with at most `fuel` others around its innermost ones. -/
def ofValueWithin : Nat → Value → Option Expr
  | 0, _ => none
  | _ + 1, .scalar (.text path) => some (ofPath path)
  | fuel + 1, v => do
    let branch (v : Value) : Option (Expr × Expr) := do
      let parts ← parts? ["when", "then"] v
      let condition ← ofValueWithin fuel (← parts.lookup "when")
      let result ← ofValueWithin fuel (← parts.lookup "then")
      return (condition, result)
    match ← form? v with
    | ("column", parts) =>
      return .column (← tableName? (parts.lookup "table")) (← text? (← parts.lookup "column"))
    | ("literal", parts) => return ofValue (← parts.lookup "value")
    | ("func", parts) =>
      let f ← settled? Function.read (← parts.lookup "func")
      let args ←
        match parts.lookup "args" with
        | some args => (← items? args).mapM (ofValueWithin fuel)
        | none => pure []
      return .call f args
    | ("aggregate", parts) =>
      let a ← settled? (Node.readChoice · Aggregation.words) (← parts.lookup "agg")
      return .aggregate a (← ofValueWithin fuel (← parts.lookup "expr"))
    | ("case", parts) =>
      let branches ← (← items? (← parts.lookup "branches")).mapM branch
      return .case branches (← ofValueWithin fuel (← parts.lookup "else_expr"))
    | ("binary", parts) =>
      let op ← settled? (Node.readChoice · BinaryOp.words) (← parts.lookup "op")
      let left ← ofValueWithin fuel (← parts.lookup "left")
      return .binary op left (← ofValueWithin fuel (← parts.lookup "right"))
    | _ => none

end Expr

namespace Value

mutual

/-- How many values stand inside one another, the outermost included. -/
def depth : Value → Nat
  | .scalar _ => 1
  | .array items => depthOfItems items + 1
  | .object members => depthOfMembers members + 1

/-- The greatest depth of the items. -/
def depthOfItems : List Value → Nat
  | [] => 0
  | v :: vs => Nat.max (depth v) (depthOfItems vs)

/-- The greatest depth of the members' values. -/
def depthOfMembers : List (String × Value) → Nat
  | [] => 0
  | (_, v) :: ms => Nat.max (depth v) (depthOfMembers ms)

end

end Value

namespace Expr

/-- The expression of a free-form value with ordered objects. -/
def ofForm? (v : Value) : Option Expr := ofValueWithin v.depth v

/-- Reads an expression. -/
def read (n : Node) : Reading Expr := do
  let v ← n.readValue
  Reading.ofOption (ofForm? v.ordered)

end Expr

end CubeSql
