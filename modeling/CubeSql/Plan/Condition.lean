import CubeSql.Plan.Scope
import CubeSql.Sql.Text

/-!
# Conditions

The condition that a filter states, apart from the expression it is stated of: whether a filter's value
fits its operator does not depend on the expression, and a comparison states the same condition of an
expression shifted in time.
-/

namespace CubeSql

/-- A condition on the value of an expression. -/
inductive Condition where
  /-- It compares with a constant. -/
  | compare (op : Sql.Operator) (value : Value)
  /-- It is one of several constants, or none of them. -/
  | oneOf (values : List Value) (negated : Bool)
  /-- It lies between two constants. -/
  | between (low high : Value)
  /-- It is absent, or is not. -/
  | isNull (negated : Bool)
deriving Inhabited

/-- The predicate that a condition makes of an expression. -/
def Condition.on : Condition → Sql.Expr → Sql.Expr
  | compare op value, subject => .binary op subject (.literal value)
  | oneOf values negated, subject => .inList subject (values.map .literal) negated
  | between low high, subject => .between subject (.literal low) (.literal high)
  | isNull negated, subject => .isNull subject negated

namespace Filter

/-- The constants of a list filter. -/
def listed : Value → List Value
  | .array items => items
  | .scalar .null => []
  | value => [value]

/-- The condition of a comparison with one constant. -/
def comparison (op : Sql.Operator) : Value → Except FilterFault Condition
  | .scalar .null => .error .absentValue
  | .scalar (.text s) => .ok (.compare op (.text s))
  | .scalar s => if op = .like then .error .notPattern else .ok (.compare op (.scalar s))
  | _ => .error .notScalar

/-- The condition of an operator with a value. -/
def conditionOf : FilterOp → Value → Except FilterFault Condition
  | .eq, v => comparison (.of .eq) v
  | .neq, v => comparison (.of .neq) v
  | .gt, v => comparison (.of .gt) v
  | .gte, v => comparison (.of .gte) v
  | .lt, v => comparison (.of .lt) v
  | .lte, v => comparison (.of .lte) v
  | .like, v => comparison .like v
  | .isIn, v => if (listed v).isEmpty then .error .noValue else .ok (.oneOf (listed v) false)
  | .notIn, v => if (listed v).isEmpty then .error .noValue else .ok (.oneOf (listed v) true)
  | .between, .array [low, high] => .ok (.between low high)
  | .between, _ => .error .noPair
  | .isNull, _ => .ok (.isNull false)
  | .isNotNull, _ => .ok (.isNull true)

/-- The condition that a filter states of its field. -/
def condition (f : Filter) : Except Error Condition :=
  (conditionOf f.op f.value.value).mapError (.filterValue f.field.key f.op)

/-- The predicate of a filter as a reader sees it: without quotes and qualifiers. -/
def describe (f : Filter) : Except Error String := do
  return ((← f.condition).on f.field.definition.unqualified).text .plain

end Filter

end CubeSql
