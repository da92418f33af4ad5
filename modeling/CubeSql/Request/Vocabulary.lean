/-!
# The vocabulary of a request

The closed sets of words that a request is written with. Each set has its written names (`name`) and a
reading of them (`ofName?`) that undoes the writing; `words` has both together.
-/

namespace CubeSql

/-- The member of `all` that is written as `s`. -/
def chooseByName {α : Type} (name : α → String) (all : List α) (s : String) : Option α :=
  all.find? fun a => name a == s

/-- How the members of a closed set are written. -/
structure Words (α : Type) where
  /-- The written names, in their declared order. -/
  names : List String
  /-- The member of a written name. -/
  ofName? : String → Option α

/-- The type of a field's values. -/
inductive DataType where
  | date | text | number | boolean
deriving DecidableEq, Repr, Inhabited

namespace DataType

/-- The written name. -/
def name : DataType → String
  | date => "date" | text => "text" | number => "number" | boolean => "boolean"

/-- The types, in their declared order. -/
def all : List DataType := [date, text, number, boolean]

/-- The type of a written name. -/
def ofName? : String → Option DataType := chooseByName name all

theorem ofName?_name (t : DataType) : ofName? t.name = some t := by cases t <;> rfl

/-- How types are written. -/
def words : Words DataType := ⟨all.map name, ofName?⟩

/-- The name that messages use. -/
def label : DataType → String
  | date => "Date" | text => "Text" | number => "Number" | boolean => "Boolean"

end DataType

/-- A unit of calendar time. -/
inductive TimeGrain where
  | day | week | month | quarter | year
deriving DecidableEq, Repr, Inhabited

namespace TimeGrain

/-- The written name. -/
def name : TimeGrain → String
  | day => "day" | week => "week" | month => "month" | quarter => "quarter" | year => "year"

/-- The units, in their declared order. -/
def all : List TimeGrain := [day, week, month, quarter, year]

/-- The unit of a written name. -/
def ofName? : String → Option TimeGrain := chooseByName name all

theorem ofName?_name (g : TimeGrain) : ofName? g.name = some g := by cases g <;> rfl

/-- How units are written. -/
def words : Words TimeGrain := ⟨all.map name, ofName?⟩

end TimeGrain

/-- An operator between two expressions. -/
inductive BinaryOp where
  | add | subtract | multiply | divide | modulo
  | eq | neq | gt | gte | lt | lte
  | and | or
deriving DecidableEq, Repr, Inhabited

namespace BinaryOp

/-- The written name. -/
def name : BinaryOp → String
  | add => "add" | subtract => "subtract" | multiply => "multiply" | divide => "divide"
  | modulo => "modulo"
  | eq => "eq" | neq => "neq" | gt => "gt" | gte => "gte" | lt => "lt" | lte => "lte"
  | and => "and" | or => "or"

/-- The operators, in their declared order. -/
def all : List BinaryOp := [add, subtract, multiply, divide, modulo, eq, neq, gt, gte, lt, lte, and, or]

/-- The operator of a written name. -/
def ofName? : String → Option BinaryOp := chooseByName name all

theorem ofName?_name (op : BinaryOp) : ofName? op.name = some op := by cases op <;> rfl

/-- How operators are written. -/
def words : Words BinaryOp := ⟨all.map name, ofName?⟩

end BinaryOp

/-- A way to aggregate the values of a group. -/
inductive Aggregation where
  | sum | count | countDistinct | min | max | avg | median
deriving DecidableEq, Repr, Inhabited

namespace Aggregation

/-- The written name. -/
def name : Aggregation → String
  | sum => "sum" | count => "count" | countDistinct => "count_distinct" | min => "min"
  | max => "max" | avg => "avg" | median => "median"

/-- The aggregations, in their declared order. -/
def all : List Aggregation := [sum, count, countDistinct, min, max, avg, median]

/-- The aggregation of a written name. -/
def ofName? : String → Option Aggregation := chooseByName name all

theorem ofName?_name (a : Aggregation) : ofName? a.name = some a := by cases a <;> rfl

/-- How aggregations are written. -/
def words : Words Aggregation := ⟨all.map name, ofName?⟩

end Aggregation

/-- How a filter compares its field with its value. -/
inductive FilterOp where
  | eq | neq | gt | gte | lt | lte
  | isIn | notIn | like | between | isNull | isNotNull
deriving DecidableEq, Repr, Inhabited

namespace FilterOp

/-- The written name. -/
def name : FilterOp → String
  | eq => "eq" | neq => "neq" | gt => "gt" | gte => "gte" | lt => "lt" | lte => "lte"
  | isIn => "in" | notIn => "not_in" | like => "like" | between => "between"
  | isNull => "is_null" | isNotNull => "is_not_null"

/-- The operators, in their declared order. -/
def all : List FilterOp := [eq, neq, gt, gte, lt, lte, isIn, notIn, like, between, isNull, isNotNull]

/-- The operator of a written name. -/
def ofName? : String → Option FilterOp := chooseByName name all

theorem ofName?_name (op : FilterOp) : ofName? op.name = some op := by cases op <;> rfl

/-- How operators are written. -/
def words : Words FilterOp := ⟨all.map name, ofName?⟩

/-- The name that messages use. -/
def label : FilterOp → String
  | eq => "Eq" | neq => "Neq" | gt => "Gt" | gte => "Gte" | lt => "Lt" | lte => "Lte"
  | isIn => "In" | notIn => "NotIn" | like => "Like" | between => "Between"
  | isNull => "IsNull" | isNotNull => "IsNotNull"

end FilterOp

/-- Whether a dimension is also totalled: collapsed in statements of its own. -/
inductive Modifier where
  | none | rollup
deriving DecidableEq, Repr, Inhabited

namespace Modifier

/-- The written name. -/
def name : Modifier → String
  | none => "none" | rollup => "rollup"

/-- The modifiers, in their declared order. -/
def all : List Modifier := [none, rollup]

/-- The modifier of a written name. -/
def ofName? : String → Option Modifier := chooseByName name all

theorem ofName?_name (m : Modifier) : ofName? m.name = some m := by cases m <;> rfl

/-- How modifiers are written. -/
def words : Words Modifier := ⟨all.map name, ofName?⟩

end Modifier

/-- Which rows a join keeps when they match no row of the other side. -/
inductive JoinType where
  | inner | left | right | outer
deriving DecidableEq, Repr, Inhabited

namespace JoinType

/-- The written name. -/
def name : JoinType → String
  | inner => "inner" | left => "left" | right => "right" | outer => "outer"

/-- The joins, in their declared order. -/
def all : List JoinType := [inner, left, right, outer]

/-- The join of a written name; an outer join is also read under the name `full`. -/
def ofName? (s : String) : Option JoinType :=
  if s = "full" then some outer else chooseByName name all s

theorem ofName?_name (j : JoinType) : ofName? j.name = some j := by cases j <;> rfl

/-- How joins are written. -/
def words : Words JoinType := ⟨all.map name, ofName?⟩

end JoinType

/-- The period that a reference compares with. -/
inductive ReferenceKind where
  | weekOverWeek | monthOverMonth | quarterOverQuarter | yearOverYear
deriving DecidableEq, Repr, Inhabited

namespace ReferenceKind

/-- The written name. -/
def name : ReferenceKind → String
  | weekOverWeek => "wow" | monthOverMonth => "mom" | quarterOverQuarter => "qoq"
  | yearOverYear => "yoy"

/-- The period of a written name. -/
def ofName? : String → Option ReferenceKind :=
  chooseByName name [weekOverWeek, monthOverMonth, quarterOverQuarter, yearOverYear]

theorem ofName?_name (k : ReferenceKind) : ofName? k.name = some k := by cases k <;> rfl

/-- How far the compared period lies back. Months and years are counted in whole weeks, so that weekdays
meet. -/
def interval : ReferenceKind → Int × TimeGrain
  | weekOverWeek => (1, .week)
  | monthOverMonth => (4, .week)
  | quarterOverQuarter => (1, .quarter)
  | yearOverYear => (52, .week)

end ReferenceKind

/-- What a reference shows of the compared value. -/
inductive ReferenceModifier where
  /-- The compared value itself. -/
  | plain
  /-- The value less the compared value. -/
  | delta
  /-- That difference relative to the compared value. -/
  | deltaPercent
deriving DecidableEq, Repr, Inhabited

/-- The direction of a sort. -/
inductive SortDirection where
  | asc | desc
deriving DecidableEq, Repr, Inhabited

end CubeSql
