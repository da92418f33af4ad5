import CubeSql.Sql.Query

/-!
# The values of expressions

What a database makes of an expression is not fixed here. An interpretation says what constants are and what
every form of expression makes of the values of its parts; the value of an expression then follows from the
values of its columns. Statements over all interpretations hold for every database that works out an
expression from its parts.
-/

namespace CubeSql.Sql

universe u

/-- The meaning of constants and of every form of expression. -/
structure Interpretation (V : Type u) where
  /-- The value of a constant. -/
  literal : Value → V
  /-- The value of a function of one row. -/
  call : Function → List V → V
  /-- The value of a choice between branches. -/
  case : List (V × V) → V → V
  /-- The value of an operator. -/
  binary : Operator → V → V → V
  /-- The value of an aggregate. -/
  aggregate : Aggregation → V → V
  /-- The value of a membership in a list, or of its negation. -/
  inList : V → List V → Bool → V
  /-- The value of a membership in a range. -/
  between : V → V → V → V
  /-- The value of an absence, or of its negation. -/
  isNull : V → Bool → V
  /-- The value of a span of time. -/
  interval : Int → TimeGrain → V
  /-- Whether a value lets a condition hold. -/
  holds : V → Prop

namespace Interpretation

variable {V : Type u} (I : Interpretation V)

mutual

/-- The value of an expression where the columns have the given values. -/
def eval (ρ : ColumnRef → V) : Expr → V
  | .column table name => ρ (table, name)
  | .literal v => I.literal v
  | .call f args => I.call f (evalAll ρ args)
  | .case branches otherwise => I.case (evalBranches ρ branches) (eval ρ otherwise)
  | .binary op left right => I.binary op (eval ρ left) (eval ρ right)
  | .aggregate a arg => I.aggregate a (eval ρ arg)
  | .inList subject items negated => I.inList (eval ρ subject) (evalAll ρ items) negated
  | .between subject low high => I.between (eval ρ subject) (eval ρ low) (eval ρ high)
  | .isNull subject negated => I.isNull (eval ρ subject) negated
  | .interval quantity unit => I.interval quantity unit

/-- The values of several expressions. -/
def evalAll (ρ : ColumnRef → V) : List Expr → List V
  | [] => []
  | e :: es => eval ρ e :: evalAll ρ es

/-- The values of several branches. -/
def evalBranches (ρ : ColumnRef → V) : List (Expr × Expr) → List (V × V)
  | [] => []
  | (condition, result) :: branches => (eval ρ condition, eval ρ result) :: evalBranches ρ branches

end

/-- An equality holds of equal values only. -/
def EqSound : Prop := ∀ a b, I.holds (I.binary (.of .eq) a b) → a = b

/-- A value less a span of time. -/
def less (quantity : Int) (unit : TimeGrain) (v : V) : V :=
  I.binary (.of .subtract) v (I.interval quantity unit)

@[simp] theorem eval_column (ρ : ColumnRef → V) (table : Option String) (name : String) :
    I.eval ρ (.column table name) = ρ (table, name) := by
  rw [eval]

@[simp] theorem eval_eq (ρ : ColumnRef → V) (left right : Expr) :
    I.eval ρ (left.eq right) = I.binary (.of .eq) (I.eval ρ left) (I.eval ρ right) := by
  rw [Expr.eq, eval]

@[simp] theorem eval_minus_interval (ρ : ColumnRef → V) (e : Expr) (quantity : Int) (unit : TimeGrain) :
    I.eval ρ (e.minus (.interval quantity unit)) =
      I.less quantity unit (I.eval ρ e) := by
  rw [Expr.minus, eval, eval, less]

end Interpretation

/-- The values of the columns after a row is placed under an alias. -/
def place {V : Type u} (ρ : ColumnRef → V) (t : String) (row : String → V) : ColumnRef → V
  | (table, name) => if table = some t then row name else ρ (table, name)

theorem place_self {V : Type u} (ρ : ColumnRef → V) (t : String) (row : String → V) (name : String) :
    place ρ t row (some t, name) = row name := if_pos rfl

theorem place_of_ne {V : Type u} (ρ : ColumnRef → V) {t t' : String} (h : t' ≠ t) (row : String → V)
    (name : String) : place ρ t row (some t', name) = ρ (some t', name) :=
  if_neg fun heq => h (Option.some.inj heq)

end CubeSql.Sql
