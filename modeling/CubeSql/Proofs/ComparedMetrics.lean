import CubeSql.Proofs.Interpretation
import CubeSql.Proofs.Schema
import Mathlib.Algebra.Field.Rat
import Mathlib.Data.Option.NAry
import Mathlib.Tactic.NormNum

/-!
# The values of compared metrics

A comparison shows of every metric the compared value, its difference to the base value, or that difference
relative to it. Values are exact numbers or absent, and arithmetic with an absent value is absent. With guarded
divisions a relative difference is absent where there is nothing to relate it to, and no row divides by zero.
-/

namespace CubeSql

/-! ## Arithmetic -/

/-- The number that is written. -/
def Number.value : Number → ℚ
  | int n => n
  | float x => (if x.negative then -1 else 1) * x.mantissa * 2 ^ x.exponent

/-- Why an expression has no value. -/
inductive ArithmeticFault where
  /-- A number is divided by zero. -/
  | divisionByZero
  /-- Something in the expression is not arithmetic. -/
  | noArithmetic
deriving DecidableEq, Repr

namespace Sql

/-- A quotient; it is absent if one of the numbers is, and there is none by zero. -/
def quotient : Option ℚ → Option ℚ → Except ArithmeticFault (Option ℚ)
  | some a, some b => if b = 0 then .error .divisionByZero else .ok (some (a / b))
  | _, _ => .ok none

/-- The first number, or nothing where it equals the second. -/
def absentIf (a b : Option ℚ) : Option ℚ := if a = b then none else a

/-- Exact arithmetic on numbers that may be absent. Other forms of expression have no value in it. -/
def Interpretation.arithmetic : Interpretation (Except ArithmeticFault (Option ℚ)) where
  literal
    | .scalar .null => .ok none
    | .scalar (.number n) => .ok (some n.value)
    | _ => .error .noArithmetic
  call
    | .nullIf, [a, b] => do return absentIf (← a) (← b)
    | _, _ => .error .noArithmetic
  case _ _ := .error .noArithmetic
  binary
    | .of .add, a, b => do return Option.map₂ (· + ·) (← a) (← b)
    | .of .subtract, a, b => do return Option.map₂ (· - ·) (← a) (← b)
    | .of .multiply, a, b => do return Option.map₂ (· * ·) (← a) (← b)
    | .of .divide, a, b => do quotient (← a) (← b)
    | _, _, _ => .error .noArithmetic
  aggregate _ _ := .error .noArithmetic
  inList _ _ _ := .error .noArithmetic
  between _ _ _ := .error .noArithmetic
  isNull _ _ := .error .noArithmetic
  interval _ _ := .error .noArithmetic
  holds _ := False

end Sql

/-! ## Shown values -/

/-- What a reference announces to show for a base value and a compared value. -/
def ReferenceModifier.Announces : ReferenceModifier → Option ℚ → Option ℚ → Option ℚ → Prop
  | plain, _, c, shown => shown = c
  | delta, b, c, shown => shown = Option.map₂ (· - ·) b c
  | deltaPercent, b, c, shown =>
    (shown = none ↔ b = none ∨ c = none ∨ c = some 0) ∧
      ∀ x y q, b = some x → c = some y → shown = some q → q = (x - y) / y

namespace Comparison

open Sql (Interpretation)

variable {ρ : Sql.ColumnRef → Except ArithmeticFault (Option ℚ)} {base compared : Sql.Expr} {b c : Option ℚ}

theorem eval_minus (hb : Interpretation.arithmetic.eval ρ base = .ok b)
    (hc : Interpretation.arithmetic.eval ρ compared = .ok c) :
    Interpretation.arithmetic.eval ρ (base.minus compared) = .ok (Option.map₂ (· - ·) b c) := by
  rw [Sql.Expr.minus, Interpretation.eval, hb, hc]
  rfl

theorem eval_guarded (hc : Interpretation.arithmetic.eval ρ compared = .ok c) :
    Interpretation.arithmetic.eval ρ (.call .nullIf [compared, .literal (.int 0)]) =
      .ok (Sql.absentIf c (some 0)) := by
  rw [Interpretation.eval, Interpretation.evalAll, Interpretation.evalAll, Interpretation.evalAll,
    Interpretation.eval, hc]
  rfl

/-- A difference that is related to a guarded value is absent exactly where one of the values is absent or the
compared one is zero. -/
theorem exists_quotient (b c : Option ℚ) :
    ∃ shown, Sql.quotient (Option.map₂ (· - ·) b c) (Sql.absentIf c (some 0)) = .ok shown ∧
      ReferenceModifier.deltaPercent.Announces b c shown := by
  cases b with
  | none => exact ⟨none, rfl, by simp, nofun⟩
  | some x =>
    cases c with
    | none => exact ⟨none, rfl, by simp, nofun⟩
    | some y =>
      by_cases hy : y = 0
      · refine ⟨none, ?_, by simp [hy], nofun⟩
        rw [Sql.absentIf, if_pos (congrArg some hy)]
        rfl
      · refine ⟨some ((x - y) / y), ?_, by simp [hy], ?_⟩
        · rw [Sql.absentIf, if_neg (fun h => hy (Option.some.inj h))]
          exact if_neg hy
        · rintro _ _ _ ⟨rfl⟩ ⟨rfl⟩ ⟨rfl⟩
          rfl

/-- With guarded divisions every base value and compared value are shown as announced. -/
theorem exists_shown (modifier : ReferenceModifier) (hb : Interpretation.arithmetic.eval ρ base = .ok b)
    (hc : Interpretation.arithmetic.eval ρ compared = .ok c) :
    ∃ shown, Interpretation.arithmetic.eval ρ (transform modifier true base compared) = .ok shown ∧
      modifier.Announces b c shown := by
  cases modifier with
  | plain => exact ⟨c, hc, rfl⟩
  | delta => exact ⟨_, eval_minus hb hc, rfl⟩
  | deltaPercent =>
    obtain ⟨shown, hshown, hannounced⟩ := exists_quotient b c
    refine ⟨shown, ?_, hannounced⟩
    rw [transform, Interpretation.eval, eval_minus hb hc, if_pos rfl, eval_guarded hc]
    exact hshown

end Comparison

/-! ## Rows -/

/-- The row of a statement with comparisons: the base row, and under every name the comparison row that is joined
to it, if one is found. -/
structure JoinedRow where
  /-- The values of the base row's columns. -/
  base : String → Option ℚ
  /-- The values of the columns of the comparison row under a name. -/
  compared : String → Option (String → Option ℚ)

namespace JoinedRow

/-- The value of a metric in the comparison row under a name, which is absent where no row is found. -/
def comparedValue (row : JoinedRow) (name aliasName : String) : Option ℚ :=
  (row.compared name).bind fun compared => compared aliasName

/-- The values of the columns in the row. Every column is one of the base row or of a comparison row. -/
def values (row : JoinedRow) : Sql.ColumnRef → Except ArithmeticFault (Option ℚ)
  | (some t, name) => .ok (if t = Plan.baseAlias then row.base name else row.comparedValue t name)
  | (none, _) => .error .noArithmetic

open Sql (Interpretation)

theorem eval_base (row : JoinedRow) (aliasName : String) :
    Interpretation.arithmetic.eval row.values (.column (some Plan.baseAlias) aliasName) =
      .ok (row.base aliasName) := by
  rw [Interpretation.eval_column, values, if_pos rfl]

theorem eval_compared (row : JoinedRow) {name : String} (h : name ≠ Plan.baseAlias) (aliasName : String) :
    Interpretation.arithmetic.eval row.values (.column (some name) aliasName) =
      .ok (row.comparedValue name aliasName) := by
  rw [Interpretation.eval_column, values, if_neg h]

end JoinedRow

/-- The query shows what the reference announces of a metric, whose values come from the base query and from the
comparison query under the reference's name. -/
structure Metric.ComparedBy (scope : Scope) (x : Reference) (query : Sql.Query) (m : Metric) : Prop where
  /-- Both queries select the metric under its alias. -/
  selected : ∃ e base j sub, m.field.definition.lower scope = .ok e ∧
    query.source = .derived base Plan.baseAlias ∧ base.projected (aliasFor m.key) = [e] ∧
    j ∈ query.joins ∧ j.source = .derived sub x.name ∧ sub.projected (aliasFor m.key) = [e]
  /-- Whatever their values in a row, the shown column has a value and it is the announced one. -/
  shown : ∃ e, query.projected (x.columnName m.key) = [e] ∧ ∀ row : JoinedRow, ∃ shown,
    Sql.Interpretation.arithmetic.eval row.values e = .ok shown ∧
      x.modifier.Announces (row.base (aliasFor m.key)) (row.comparedValue x.name (aliasFor m.key)) shown

namespace Plan.Resolved

variable {r : Request} {settings : Settings} {p : Plan}

/-- The expression of the column in which a comparison shows a metric. -/
def shownExpr (p : Plan) (c : Comparison) (m : MetricColumn) : Sql.Expr :=
  Comparison.transform c.reference.modifier p.settings.guardsDivision
    (.column (some baseAlias) m.aliasName) (.column (some c.name) m.aliasName)

/-- Under the alias of a compared metric the column of the comparison alone is selected. -/
theorem projected_shown (h : Resolved r settings p) {c : Comparison} (hc : c ∈ p.comparisons)
    {m : MetricColumn} (hm : m ∈ p.selection.metrics) (collapsed : List String) :
    (p.comparedQuery collapsed).projected (c.columnAlias m.aliasName) = [shownExpr p c m] := by
  have hn : (p.comparedQuery collapsed).aliases.Nodup := by
    rw [Sql.Select.aliases, filterMap_eq_of_map_eq (p.map_aliasName_comparedQuery collapsed)]
    exact h.aliases_nodup
  have hitem : ⟨shownExpr p c m, some (c.columnAlias m.aliasName)⟩ ∈ p.comparisonItems c :=
    List.mem_cons_of_mem _ (List.mem_map.mpr ⟨m, hm, rfl⟩)
  exact Sql.Select.projected_eq hn (List.mem_append_right _ (List.mem_flatMap.mpr ⟨c, hc, hitem⟩)) rfl

theorem projected_metric (h : Resolved r settings p) {m : MetricColumn} (hm : m ∈ p.selection.metrics)
    (collapsed : List String) (c : Comparison) :
    (p.baseQuery collapsed).projected m.aliasName = [m.expr] ∧
      (p.comparisonQuery collapsed c).projected m.aliasName = [m.expr] :=
  ⟨Sql.Select.projected_eq (h.aliases_baseQuery_nodup collapsed)
      (List.mem_append_right _ (List.mem_map_of_mem hm)) rfl,
    Sql.Select.projected_eq (h.aliases_comparisonQuery_nodup collapsed c)
      (List.mem_append_right _ (List.mem_map_of_mem hm)) rfl⟩

theorem comparedBy (h : Resolved r settings p) (hguard : settings.guardsDivision = true) {x : Reference}
    (hx : x ∈ r.references) {m : Metric} (hm : m ∈ r.metrics) (collapsed : List String) :
    m.ComparedBy p.selection.scope x (p.comparedQuery collapsed) := by
  obtain ⟨c, hc, hbind⟩ := exists_right_of_forall₂ h.comparisons hx
  obtain ⟨rfl, -⟩ := Comparison.bind_eq_ok.mp hbind
  obtain ⟨column, hcolumn, hresolve⟩ := exists_right_of_forall₂ h.selection.metrics hm
  obtain ⟨e, hlower, rfl⟩ := Metric.resolve_eq_ok.mp hresolve
  obtain ⟨hbase, hsub⟩ := h.projected_metric hcolumn collapsed c
  constructor
  · exact ⟨e, p.baseQuery collapsed, p.comparisonJoin collapsed c, p.comparisonQuery collapsed c, hlower, rfl,
      hbase, List.mem_map_of_mem hc, rfl, hsub⟩
  · refine ⟨_, h.projected_shown hc hcolumn collapsed, fun row => ?_⟩
    have hguarded : p.settings.guardsDivision = true := by rw [h.settings, hguard]
    rw [shownExpr, hguarded]
    exact Comparison.exists_shown c.reference.modifier (row.eval_base _)
      (row.eval_compared c.reference.name_ne_baseAlias _)

end Plan.Resolved

/-- In every statement of a request that compiles with guarded divisions, the column of each metric under each
reference shows what the reference announces of the values in the base row and in the comparison row, and its
value is never a division by zero. -/
theorem compared_metrics_as_announced {r : Request} {settings : Settings} {c : Compilation}
    (h : Compilation.ofRequest r settings = .ok c) (hguard : settings.guardsDivision = true) :
    ∃ scope, Scope.ofRequest r = .ok scope ∧ ∀ s ∈ c.statements, ∀ x ∈ r.references, ∀ m ∈ r.metrics,
      m.ComparedBy scope x s.query := by
  obtain ⟨p, hp, rfl⟩ := Compilation.ofRequest_eq_ok.mp h
  refine ⟨p.selection.scope,
    Scope.ofRequest_eq_ok.mpr ⟨hp.selection.table_not_blank, hp.selection.scope⟩, fun s hs x hx m hm => ?_⟩
  have hrefs : r.references ≠ [] := List.ne_nil_of_mem hx
  rw [Compilation.query_of_mem hs, hp.query_eq_comparedQuery hrefs]
  exact hp.comparedBy hguard hx hm s.kind.collapsed

/-- The clicks by day, compared with those of the week before in all three ways. -/
def Request.comparedClicks : Request where
  table := "clicks"
  joins := []
  dimensions := [.plain .country, .totalled .time]
  metrics := [⟨.clicks⟩]
  filters := []
  references := [⟨.weekOverWeek, .plain, "at"⟩, ⟨.weekOverWeek, .delta, "at"⟩,
    ⟨.weekOverWeek, .deltaPercent, "at"⟩]
  rollup := []
  limit := none
  offset := none

/-- Of twelve clicks after ten the relative difference is a fifth. It is absent after none, and where no row is
joined. -/
theorem compared_metrics_as_announced_comparedClicks :
    ∃ c, Compilation.ofRequest .comparedClicks .default = .ok c ∧ Settings.default.guardsDivision = true ∧
      ∀ s ∈ c.statements, ∃ e, s.query.projected "$clicks_wow_p" = [e] ∧ ∀ row : JoinedRow,
        row.base "$clicks" = some 12 →
        (row.comparedValue "wow_p" "$clicks" = some 10 →
          Sql.Interpretation.arithmetic.eval row.values e = .ok (some (1 / 5))) ∧
        (row.comparedValue "wow_p" "$clicks" = some 0 →
          Sql.Interpretation.arithmetic.eval row.values e = .ok none) ∧
        (row.compared "wow_p" = none → Sql.Interpretation.arithmetic.eval row.values e = .ok none) := by
  obtain ⟨c, hc⟩ : ∃ c, Compilation.ofRequest .comparedClicks .default = .ok c :=
    exists_of_isOk (by decide +kernel)
  obtain ⟨scope, -, hcompared⟩ := compared_metrics_as_announced hc rfl
  refine ⟨c, hc, rfl, fun s hs => ?_⟩
  have hmetric := hcompared s hs ⟨.weekOverWeek, .deltaPercent, "at"⟩ (by simp [Request.comparedClicks])
    ⟨.clicks⟩ (by simp [Request.comparedClicks])
  obtain ⟨e, hprojected, hshown⟩ := hmetric.shown
  refine ⟨e, hprojected, fun row hbase => ?_⟩
  obtain ⟨shown, heval, habsent, hquotient⟩ := hshown row
  refine ⟨fun hten => ?_, fun hzero => ?_, fun hnone => ?_⟩
  · cases shown with
    | none =>
      rcases habsent.mp rfl with hb | hten' | hten'
      · exact absurd (hbase.symm.trans hb) nofun
      · exact absurd (hten.symm.trans hten') nofun
      · exact absurd (Option.some.inj (hten.symm.trans hten')) (by decide)
    | some q =>
      rw [heval, hquotient 12 10 q hbase hten rfl]
      norm_num
  · rw [heval, habsent.mpr (.inr (.inr hzero))]
  · have hmissing : row.comparedValue "wow_p" "$clicks" = none := by
      rw [JoinedRow.comparedValue, hnone, Option.bind_none]
    rw [heval, habsent.mpr (.inr (.inl hmissing))]

end CubeSql
