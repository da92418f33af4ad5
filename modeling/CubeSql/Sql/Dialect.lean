import CubeSql.Json.Compact
import CubeSql.Request.Expr
import CubeSql.Sql.Quoted

/-!
# SQL dialects

What the databases spell differently is gathered in `Sql.Spelling`; the rest of a statement's text is the
same for all of them. There is one spelling for each dialect, and a plain one without quotes around names,
in which predicates are described to readers.
-/

namespace CubeSql

/-- The keyword of a unit of time. -/
def TimeGrain.keyword : TimeGrain → String
  | day => "DAY" | week => "WEEK" | month => "MONTH" | quarter => "QUARTER" | year => "YEAR"

namespace Sql

/-- The databases for which statements are written. -/
inductive Dialect where
  | duckdb | postgres | bigquery
deriving DecidableEq, Repr, Inhabited

namespace Dialect

/-- The written name. -/
def name : Dialect → String
  | duckdb => "duckdb" | postgres => "postgres" | bigquery => "bigquery"

/-- The dialects, in their declared order. -/
def all : List Dialect := [duckdb, postgres, bigquery]

/-- The dialect of a written name. -/
def ofName? : String → Option Dialect := chooseByName name all

theorem ofName?_name (d : Dialect) : ofName? d.name = some d := by cases d <;> rfl

/-- How dialects are written. -/
def words : Words Dialect := ⟨all.map name, ofName?⟩

end Dialect

/-- The spellings in which dialects differ. -/
structure Spelling where
  /-- A quoted name. -/
  quoteName : String → String
  /-- Whether GROUP BY may name an alias of the select list. -/
  groupsByAlias : Bool
  /-- A date rounded down to a unit of time. -/
  dateTrunc : TimeGrain → String → String
  /-- The median of an expression. -/
  median : String → String
  /-- What stands between the quotes of a text. -/
  escapeText : String → String
  /-- A span of time. -/
  interval : Int → TimeGrain → String

namespace Spelling

/-- The spelling for DuckDB. -/
def duckdb : Spelling where
  quoteName name := between nameQuote (escapeWith (doubled nameQuote) name)
  groupsByAlias := true
  dateTrunc grain arg := "date_trunc('" ++ grain.name ++ "', " ++ arg ++ ")"
  median arg := "MEDIAN(" ++ arg ++ ")"
  escapeText := escapeWith (doubled textQuote)
  interval quantity unit := "INTERVAL " ++ toString quantity ++ " " ++ unit.keyword

/-- A span of time as PostgreSQL writes it, which has no quarters. -/
def quotedInterval (quantity : Int) : TimeGrain → String
  | .day => "INTERVAL '" ++ toString quantity ++ " days'"
  | .week => "INTERVAL '" ++ toString quantity ++ " weeks'"
  | .month => "INTERVAL '" ++ toString quantity ++ " months'"
  | .quarter => "INTERVAL '" ++ toString (quantity * 3) ++ " months'"
  | .year => "INTERVAL '" ++ toString quantity ++ " years'"

/-- The spelling for PostgreSQL. Input columns hide aliases in its GROUP BY, which therefore repeats the
expressions. -/
def postgres : Spelling :=
  { duckdb with
    groupsByAlias := false
    median := fun arg => "PERCENTILE_CONT(0.5) WITHIN GROUP (ORDER BY " ++ arg ++ ")"
    interval := quotedInterval }

/-- The spelling for BigQuery. -/
def bigquery : Spelling :=
  { duckdb with
    quoteName := fun name => between graveQuote (escapeWith (backslashed [graveQuote]) name)
    dateTrunc := fun grain arg => "DATE_TRUNC(" ++ arg ++ ", " ++ grain.keyword ++ ")"
    median := fun arg => "APPROX_QUANTILES(" ++ arg ++ ", 2)[OFFSET(1)]"
    escapeText := escapeWith (backslashed ['\\', textQuote]) }

/-- What BigQuery escapes may be escaped one after the other, backslashes first. -/
theorem escapeText_bigquery (text : String) :
    bigquery.escapeText text = escapeWith (backslashed [textQuote]) (escapeWith (backslashed ['\\']) text) := by
  have hescape : ∀ c, backslashed ['\\', textQuote] c =
      (backslashed ['\\'] c).flatMap (backslashed [textQuote]) := by
    intro c
    by_cases hback : c = '\\'
    · subst hback
      decide
    · by_cases hquote : c = textQuote
      · subst hquote
        decide
      · simp [backslashed, hback, hquote]
  have htext : bigquery.escapeText text = escapeWith (backslashed ['\\', textQuote]) text := rfl
  simp only [htext, escapeWith, String.toList_ofList, List.flatMap_assoc, ← hescape]

/-- The spelling in which predicates are described: names stand without quotes. -/
def plain : Spelling := { duckdb with quoteName := id }

/-! ## Parts of expressions -/

/-- A call of a function with its arguments. A call with a wrong number of them has no value. -/
def call (s : Spelling) : Function → List String → String
  | .dateTrunc grain, [arg] => s.dateTrunc grain arg
  | .dateTrunc _, _ => "NULL"
  | .cast dataType, [arg] => "CAST(" ++ arg ++ " AS " ++ dataType ++ ")"
  | .cast _, _ => "NULL"
  | .nullIf, [left, right] => "nullif(" ++ left ++ ", " ++ right ++ ")"
  | .nullIf, _ => "NULL"
  | .lower, args => "lower(" ++ ", ".intercalate args ++ ")"
  | .upper, args => "upper(" ++ ", ".intercalate args ++ ")"
  | .coalesce, args => "coalesce(" ++ ", ".intercalate args ++ ")"
  | .concat, args => "concat(" ++ ", ".intercalate args ++ ")"

/-- An aggregate of an argument. -/
def aggregate (s : Spelling) : Aggregation → String → String
  | .sum, arg => "SUM(" ++ arg ++ ")"
  | .count, arg => "COUNT(" ++ arg ++ ")"
  | .countDistinct, arg => "COUNT(DISTINCT " ++ arg ++ ")"
  | .min, arg => "MIN(" ++ arg ++ ")"
  | .max, arg => "MAX(" ++ arg ++ ")"
  | .avg, arg => "AVG(" ++ arg ++ ")"
  | .median, arg => s.median arg

/-- A quoted text. -/
def quoteText (s : Spelling) (text : String) : String := between textQuote (s.escapeText text)

/-- A constant without parts. -/
def scalar (s : Spelling) : Scalar → String
  | .null => "NULL"
  | .bool b => if b then "true" else "false"
  | .number n => n.text
  | .text text => s.quoteText text

mutual

/-- A constant. A list stands as its items with commas between them, an object as its compact JSON
text. -/
def literal (s : Spelling) : Value → String
  | .scalar v => s.scalar v
  | .array items => ", ".intercalate (literals s items)
  | .object members => s.quoteText (Value.object members).compact

/-- Several constants. -/
def literals (s : Spelling) : List Value → List String
  | [] => []
  | v :: vs => literal s v :: literals s vs

end

end Spelling

/-- The spelling of a dialect. -/
def Dialect.spelling : Dialect → Spelling
  | duckdb => .duckdb | postgres => .postgres | bigquery => .bigquery

end Sql

end CubeSql
