import CubeSql.Proofs.Columns
import CubeSql.Proofs.ComparisonJoin
import CubeSql.Proofs.Isolation

/-!
# The filters of a comparison

The query of a comparison has the conditions on rows of the base query, each in the same place. Those on the
period of the reference's dimension are stated of their definition less the span of time, and so let a compared
row through exactly when the base query lets the row through that it is joined to. Which conditions these are is
decided by their keys and by the columns that they read.
-/

namespace CubeSql

universe u

/-! ## Values of conditions -/

namespace Sql.Interpretation

variable {V : Type u} (I : Interpretation V) (ρ : ColumnRef → V)

theorem evalAll_map_literal (values : List Value) :
    I.evalAll ρ (values.map .literal) = values.map I.literal := by
  induction values with
  | nil => rw [List.map_nil, evalAll, List.map_nil]
  | cons v values ih => rw [List.map_cons, evalAll, eval, ih, List.map_cons]

/-- The value of a condition on a value. -/
def condition : Condition → V → V
  | .compare op value, v => I.binary op v (I.literal value)
  | .oneOf values negated, v => I.inList v (values.map I.literal) negated
  | .between low high, v => I.between v (I.literal low) (I.literal high)
  | .isNull negated, v => I.isNull v negated

/-- The value of a condition on an expression depends on the value of the expression alone. -/
theorem eval_on (k : Condition) (e : Expr) : I.eval ρ (k.on e) = I.condition k (I.eval ρ e) := by
  cases k with
  | compare op value => rw [Condition.on, eval, eval, condition]
  | oneOf values negated => rw [Condition.on, eval, evalAll_map_literal, condition]
  | between low high => rw [Condition.on, eval, eval, eval, condition]
  | isNull negated => rw [Condition.on, eval, condition]

end Sql.Interpretation

/-! ## What is compared -/

/-- A reference compares by a query along a dimension, whose definition is the anchor. -/
structure Reference.ComparesAlong (r : Request) (scope : Scope) (x : Reference) (j : Sql.QueryJoin)
    (sub : Sql.Query) (d : Dimension) (anchor : Sql.Expr) : Prop where
  source : j.source = .derived sub x.name
  mem : d ∈ r.dimensions
  key : d.key = x.dimension
  date : d.field.dataType = .date
  anchor : d.field.definition.lower scope = .ok anchor

namespace Plan.Resolved

variable {r : Request} {settings : Settings} {p : Plan}

theorem exists_comparesAlong (h : Resolved r settings p) {x : Reference} {c : Comparison}
    (hbind : Comparison.bind p.selection.dimensions x = .ok c) (collapsed : List String) :
    ∃ d, d.key = c.anchor.key ∧ x.ComparesAlong r p.selection.scope (p.comparisonJoin collapsed c)
      (p.comparisonQuery collapsed c) d c.anchor.expr := by
  obtain ⟨rfl, -, hdate⟩ := Comparison.bind_eq_ok.mp hbind
  have hkey := Comparison.anchor_key_of_bind hbind
  obtain ⟨d, hd, e, hlower, hanchor⟩ := h.selection.exists_dimension (Comparison.anchor_mem_of_bind hbind)
  rw [hanchor] at hkey hdate ⊢
  exact ⟨d, rfl, rfl, hd, hkey, hdate, hlower⟩

/-- Every filter on rows has its restriction in its own place. -/
theorem exists_restriction (h : Resolved r settings p) {i : Nat} {f : Filter} (hf : r.rowFilters[i]? = some f) :
    ∃ e k, f.field.definition.lower p.selection.scope = .ok e ∧ f.condition = .ok k ∧
      p.selection.restrictions.rows[i]? = some ⟨f.field.key, e, k⟩ := by
  obtain ⟨row, hrow, hres⟩ := exists_getElem?_of_forall₂ h.selection.restrictions.rows hf
  obtain ⟨e, he, k, hk, rfl⟩ := Filter.resolve_eq_ok.mp hres
  exact ⟨e, k, he, hk, hrow⟩

/-- The predicates of a restriction stand in its place in the base query and in the query of a comparison. -/
theorem getElem?_restrictions {i : Nat} {row : Restriction}
    (hrow : p.selection.restrictions.rows[i]? = some row) (collapsed : List String) (c : Comparison) :
    (p.baseQuery collapsed).restrictions[i]? = some row.predicate ∧
      (p.comparisonQuery collapsed c).restrictions[i]? = some (c.predicate row) := by
  simp only [baseQuery, comparisonQuery, List.getElem?_map, hrow, Option.map_some, and_self]

end Plan.Resolved

/-- The statements of a request with references are the compared queries of one plan. -/
theorem Compilation.exists_comparedQuery {r : Request} {settings : Settings} {c : Compilation}
    (h : Compilation.ofRequest r settings = .ok c) (hrefs : r.references ≠ []) :
    ∃ p, Plan.Resolved r settings p ∧ Scope.ofRequest r = .ok p.selection.scope ∧
      ∀ s ∈ c.statements, s.query = p.comparedQuery s.kind.collapsed := by
  obtain ⟨p, hp, rfl⟩ := Compilation.ofRequest_eq_ok.mp h
  have hscope := Scope.ofRequest_eq_ok.mpr ⟨hp.selection.table_not_blank, hp.selection.scope⟩
  refine ⟨p, hp, hscope, fun s hs => ?_⟩
  rw [Compilation.query_of_mem hs, hp.query_eq_comparedQuery hrefs]

theorem Comparison.constrainsAnchor_iff {c : Comparison} {row : Restriction} :
    c.constrainsAnchor row = true ↔ row.key = c.anchor.key ∨
      (c.anchor.expr.columns ≠ [] ∧ row.subject.columns = c.anchor.expr.columns) := by
  simp [constrainsAnchor]

/-! ## Windows -/

namespace Reference

/-- Two conditions, one on base rows and one on compared rows, hold alike of rows whose values of the anchor are
the reference's span of time apart, whatever a database makes of expressions. -/
def HoldsAlike (x : Reference) (anchor base compared : Sql.Expr) : Prop :=
  ∀ {V : Type u} (I : Sql.Interpretation V) (b c : Sql.ColumnRef → V),
    I.eval b anchor = I.less x.kind.interval.1 x.kind.interval.2 (I.eval c anchor) →
      (I.holds (I.eval c compared) ↔ I.holds (I.eval b base))

/-- A restriction of the anchor is moved with it, unless the anchor is the same on all rows. -/
theorem holdsAlike_predicate {c : Comparison} {row : Restriction} (hrow : row.subject = c.anchor.expr) :
    c.reference.HoldsAlike.{u} c.anchor.expr row.predicate (c.predicate row) := by
  intro V I b c' hspan
  rw [← hrow] at hspan
  unfold Comparison.predicate
  split_ifs with hanchor
  · rw [Restriction.predicate, I.eval_on, I.eval_on, Comparison.shift, Comparison.interval,
      I.eval_minus_interval, hspan]
  · have hnone : row.subject.columns = [] := by
      by_contra hsome
      rw [Comparison.constrainsAnchor_iff, ← hrow] at hanchor
      exact hanchor (.inr ⟨hsome, rfl⟩)
    rw [Restriction.predicate, I.eval_on, I.eval_on, I.eval_eq_of_columns_eq_nil hnone]

end Reference

/-- In every statement of a compiled request with references, each comparison is joined on its anchor, moved
back by the reference's span of time unless it is collapsed; and a filter on the definition of the anchor
restricts the compared rows as it restricts the base rows that lie this span of time before them. -/
theorem comparison_windows_meet_join {r : Request} {settings : Settings} {c : Compilation}
    (h : Compilation.ofRequest r settings = .ok c) (hrefs : r.references ≠ []) :
    ∃ scope, Scope.ofRequest r = .ok scope ∧ ∀ s ∈ c.statements, ∃ base,
      s.query.source = .derived base Plan.baseAlias ∧
      List.Forall₂ (fun x j => ∃ sub d anchor, Reference.ComparesAlong r scope x j sub d anchor ∧
        x.meets s.kind.collapsed (aliasFor d.key) ∈ j.on ∧
        ∀ (i : Nat) (f : Filter), r.rowFilters[i]? = some f → f.field.definition.lower scope = .ok anchor →
          ∃ k q, f.condition = .ok k ∧ base.restrictions[i]? = some (k.on anchor) ∧
            sub.restrictions[i]? = some q ∧ x.HoldsAlike.{u} anchor (k.on anchor) q)
        r.references s.query.joins := by
  obtain ⟨p, hp, hscope, hquery⟩ := Compilation.exists_comparedQuery h hrefs
  refine ⟨p.selection.scope, hscope, fun s hs => ?_⟩
  rw [hquery s hs]
  refine ⟨p.baseQuery s.kind.collapsed, rfl, hp.forall₂_joins fun x c hbind => ?_⟩
  obtain ⟨d, -, hd⟩ := hp.exists_comparesAlong hbind s.kind.collapsed
  have hjoined := hp.joinedOn hbind s.kind.collapsed
  refine ⟨_, d, _, hd, ?_, fun i f hf hlower => ?_⟩
  · have halias := hjoined.dimensions.mem_iff.mpr (List.mem_map_of_mem hd.mem)
    exact hjoined.on.mem_iff.mpr (List.mem_map_of_mem halias)
  · obtain ⟨e, k, he, hk, hrow⟩ := hp.exists_restriction hf
    obtain rfl : e = c.anchor.expr := Except.ok.inj (he.symm.trans hlower)
    obtain ⟨hbase, hsub⟩ := Plan.Resolved.getElem?_restrictions hrow s.kind.collapsed c
    obtain ⟨rfl, -⟩ := Comparison.bind_eq_ok.mp hbind
    exact ⟨k, _, hk, hbase, hsub, Reference.holdsAlike_predicate rfl⟩

/-- Clicks in January by time, compared with those of the week before. That they are in January is said twice,
of the time and of its text. -/
def Request.januaryClicks : Request where
  table := "clicks"
  joins := []
  dimensions := [.plain .time]
  metrics := [⟨.clicks⟩]
  filters := [
    .dimension ⟨.time, .between, .ofValue (.array [.text "2024-01-01", .text "2024-01-31"])⟩,
    .dimension ⟨⟨"month", .text, .call (.cast "text") [.column none "at"], by decide⟩, .like,
      .ofValue (.text "2024-01%")⟩]
  references := [⟨.weekOverWeek, .plain, "at"⟩]
  rollup := []
  limit := none
  offset := none

theorem comparison_window_meets_join_januaryClicks :
    Request.januaryClicks.references ≠ [] ∧ ∃ c, Compilation.ofRequest .januaryClicks .default = .ok c ∧
      ∀ s ∈ c.statements, ∃ base, s.query.source = .derived base Plan.baseAlias ∧
        List.Forall₂ (fun x j => ∃ sub p q, j.source = .derived sub (Reference.name x) ∧
          base.restrictions[0]? = some p ∧ sub.restrictions[0]? = some q ∧
          x.HoldsAlike.{0} (.column none "at") p q) Request.januaryClicks.references s.query.joins := by
  have hrefs : Request.januaryClicks.references ≠ [] := List.cons_ne_nil _ _
  obtain ⟨c, hc⟩ : ∃ c, Compilation.ofRequest .januaryClicks .default = .ok c :=
    exists_of_isOk (by decide +kernel)
  obtain ⟨scope, hscope, hmeets⟩ := comparison_windows_meet_join hc hrefs
  obtain rfl := (Scope.ofRequest_eq_ok.mp hscope).2
  refine ⟨hrefs, c, hc, fun s hs => ?_⟩
  obtain ⟨base, hbase, hjoins⟩ := hmeets s hs
  refine ⟨base, hbase, hjoins.imp fun x j hx => ?_⟩
  obtain ⟨sub, d, anchor, hd, -, hfilters⟩ := hx
  obtain rfl := List.mem_singleton.mp hd.mem
  obtain rfl : anchor = .column none "at" := Except.ok.inj (hd.anchor.symm.trans rfl)
  obtain ⟨k, q, -, hp, hq, halike⟩ := hfilters 0 _ rfl rfl
  exact ⟨sub, _, q, hd.source, hp, hq, halike⟩

/-! ## Shifted conditions -/

/-- The expression is a condition on an expression less a span of time. -/
def Sql.Expr.OnShifted (q : Expr) : Prop :=
  ∃ (k : Condition) (e : Expr) (quantity : Int) (unit : TimeGrain), q = k.on (e.minus (.interval quantity unit))

/-- A condition shows what it is stated of. -/
theorem Condition.on_inj {k k' : Condition} {e e' : Sql.Expr} (h : k.on e = k'.on e') : e = e' := by
  cases k <;> cases k' <;> simp only [on, Sql.Expr.binary.injEq, Sql.Expr.inList.injEq,
    Sql.Expr.between.injEq, Sql.Expr.isNull.injEq, reduceCtorEq] at h
  · exact h.2.1
  · exact h.1
  · exact h.1
  · exact h.1

namespace Expr

variable {s : Scope} {quantity : Int} {unit : TimeGrain}

/-- No definition is a span of time. -/
theorem lower_ne_interval {d : Expr} : d.lower s ≠ .ok (.interval quantity unit) := by
  cases d <;> simp only [lower, lowerWith, ne_eq, bind_eq_ok, pure_eq_ok, reduceCtorEq, and_false,
    exists_false, not_false_eq_true]

/-- No definition is an expression less a span of time. -/
theorem lower_ne_minus_interval {d : Expr} {e : Sql.Expr} :
    d.lower s ≠ .ok (e.minus (.interval quantity unit)) := by
  intro h
  cases d <;> simp only [lower, lowerWith, Sql.Expr.minus, bind_eq_ok, pure_eq_ok, reduceCtorEq, and_false,
    exists_false] at h
  obtain ⟨left, -, right, hright, heq⟩ := h
  cases heq
  exact lower_ne_interval hright

/-- No condition on a definition is on a shifted expression. -/
theorem not_onShifted_of_lower {d : Expr} {e : Sql.Expr} (h : d.lower s = .ok e) (k : Condition) :
    ¬ (k.on e).OnShifted := by
  rintro ⟨k', e', quantity, unit, heq⟩
  obtain rfl := Condition.on_inj heq
  exact lower_ne_minus_interval h

end Expr

/-- The filter on rows is on the period of the anchor: it has the key of the anchor's dimension, or its
definition `e` reads exactly the columns that the anchor reads, if any. -/
def Filter.OnAnchor (f : Filter) (e : Sql.Expr) (d : Dimension) (anchor : Sql.Expr) : Prop :=
  f.field.key = d.key ∨ (anchor.columns ≠ [] ∧ e.columns = anchor.columns)

/-- In every statement of a compiled request with references, the conditions that the query of a comparison
has on shifted expressions are those of the filters on the anchor, which is the definition of a date dimension.
They are on the definitions of these filters less the reference's span of time; all other conditions are on the
definitions of their filters, and so are those of the base query. -/
theorem shifted_filters_on_anchor {r : Request} {settings : Settings} {c : Compilation}
    (h : Compilation.ofRequest r settings = .ok c) (hrefs : r.references ≠ []) :
    ∃ scope, Scope.ofRequest r = .ok scope ∧ ∀ s ∈ c.statements, ∃ base,
      s.query.source = .derived base Plan.baseAlias ∧
      List.Forall₂ (fun x j => ∃ sub d anchor, Reference.ComparesAlong r scope x j sub d anchor ∧
        ∀ (i : Nat) (f : Filter), r.rowFilters[i]? = some f → ∃ e k q,
          f.field.definition.lower scope = .ok e ∧ f.condition = .ok k ∧
            base.restrictions[i]? = some (k.on e) ∧ ¬ (k.on e).OnShifted ∧
            sub.restrictions[i]? = some q ∧ (q.OnShifted ↔ f.OnAnchor e d anchor) ∧
            (f.OnAnchor e d anchor → q = k.on (e.minus x.span)) ∧ (¬ f.OnAnchor e d anchor → q = k.on e))
        r.references s.query.joins := by
  obtain ⟨p, hp, hscope, hquery⟩ := Compilation.exists_comparedQuery h hrefs
  refine ⟨p.selection.scope, hscope, fun s hs => ?_⟩
  rw [hquery s hs]
  refine ⟨p.baseQuery s.kind.collapsed, rfl, hp.forall₂_joins fun x c hbind => ?_⟩
  obtain ⟨d, hkey, hd⟩ := hp.exists_comparesAlong hbind s.kind.collapsed
  refine ⟨_, d, _, hd, fun i f hf => ?_⟩
  obtain ⟨e, k, he, hk, hrow⟩ := hp.exists_restriction hf
  obtain ⟨hbase, hsub⟩ := Plan.Resolved.getElem?_restrictions hrow s.kind.collapsed c
  obtain ⟨rfl, -⟩ := Comparison.bind_eq_ok.mp hbind
  have hplain := Expr.not_onShifted_of_lower he k
  have hanchor : c.constrainsAnchor ⟨f.field.key, e, k⟩ = true ↔ f.OnAnchor e d c.anchor.expr := by
    rw [Comparison.constrainsAnchor_iff, Filter.OnAnchor, hkey]
  refine ⟨e, k, _, he, hk, hbase, hplain, hsub, ?_⟩
  by_cases hon : f.OnAnchor e d c.anchor.expr
  · rw [Comparison.predicate, if_pos (hanchor.mpr hon)]
    exact ⟨⟨fun _ => hon, fun _ => ⟨k, e, _, _, rfl⟩⟩, fun _ => rfl, fun hnot => absurd hon hnot⟩
  · rw [Comparison.predicate, if_neg fun hmoved => hon (hanchor.mp hmoved)]
    exact ⟨⟨fun hq => absurd hq hplain, fun hyes => absurd hyes hon⟩, fun hyes => absurd hyes hon,
      fun _ => rfl⟩

theorem shifted_filters_on_anchor_januaryClicks :
    Request.januaryClicks.references ≠ [] ∧ ∃ c, Compilation.ofRequest .januaryClicks .default = .ok c ∧
      ∀ s ∈ c.statements, ∃ base, s.query.source = .derived base Plan.baseAlias ∧
        List.Forall₂ (fun x j => ∃ sub q, j.source = .derived sub (Reference.name x) ∧
          sub.restrictions[0]? = some q ∧ q.OnShifted) Request.januaryClicks.references s.query.joins := by
  have hrefs : Request.januaryClicks.references ≠ [] := List.cons_ne_nil _ _
  obtain ⟨c, hc⟩ : ∃ c, Compilation.ofRequest .januaryClicks .default = .ok c :=
    exists_of_isOk (by decide +kernel)
  obtain ⟨scope, -, hshifted⟩ := shifted_filters_on_anchor hc hrefs
  refine ⟨hrefs, c, hc, fun s hs => ?_⟩
  obtain ⟨base, hbase, hjoins⟩ := hshifted s hs
  refine ⟨base, hbase, hjoins.imp fun x j hx => ?_⟩
  obtain ⟨sub, d, anchor, hd, hfilters⟩ := hx
  obtain rfl := List.mem_singleton.mp hd.mem
  obtain ⟨e, k, q, -, -, -, -, hq, hon, -⟩ := hfilters 0 _ rfl
  exact ⟨sub, q, hd.source, hq, hon.mpr (.inl rfl)⟩

/-- The month is a text, but it is a text of the time, so that it is moved back like the time. -/
theorem month_shifted_januaryClicks :
    ∃ c, Compilation.ofRequest .januaryClicks .default = .ok c ∧ ∃ s ∈ c.statements,
      ∃ x ∈ Request.januaryClicks.references, ∃ j ∈ s.query.joins, ∃ sub,
        j.source = .derived sub (Reference.name x) ∧ ∃ f q, Request.januaryClicks.rowFilters[1]? = some f ∧
          f.field.dataType = .text ∧ sub.restrictions[1]? = some q ∧ q.OnShifted := by
  obtain ⟨c, hc⟩ : ∃ c, Compilation.ofRequest .januaryClicks .default = .ok c :=
    exists_of_isOk (by decide +kernel)
  obtain ⟨p, hp, rfl⟩ := Compilation.ofRequest_eq_ok.mp hc
  obtain ⟨k, hk, hbind⟩ := exists_right_of_forall₂ hp.comparisons List.mem_cons_self
  obtain ⟨d, -, hd⟩ := hp.exists_comparesAlong hbind []
  obtain ⟨e, condition, he, -, hrow⟩ := hp.exists_restriction (i := 1) rfl
  obtain ⟨-, hsub⟩ := Plan.Resolved.getElem?_restrictions hrow [] k
  have hscope : p.selection.scope = ⟨"clicks", []⟩ := hp.selection.scope
  have hanchor : k.anchor.expr = .column none "at" := by
    have hlower := hd.anchor
    obtain rfl := List.mem_singleton.mp hd.mem
    rw [hscope] at hlower
    exact (Except.ok.inj (hlower.symm.trans rfl))
  have hmonth : e = .call (.cast "text") [.column none "at"] := by
    rw [hscope] at he
    exact Except.ok.inj (he.symm.trans rfl)
  -- Both read the column of the time and no other.
  have hon : k.constrainsAnchor ⟨"month", e, condition⟩ = true := by
    rw [Comparison.constrainsAnchor_iff, hanchor, hmonth]
    exact .inr ⟨by decide, rfl⟩
  rw [Comparison.predicate, if_pos hon] at hsub
  refine ⟨_, hc, ⟨.base, p.query []⟩, List.mem_cons_self, _, List.mem_cons_self, p.comparisonJoin [] k, ?_,
    _, hd.source, _, _, rfl, rfl, hsub, condition, e, _, _, rfl⟩
  rw [hp.query_eq_comparedQuery (List.cons_ne_nil _ _)]
  exact List.mem_map_of_mem hk

end CubeSql
