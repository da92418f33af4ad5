import CubeSql.Proofs.GroupingSets
import CubeSql.Proofs.WrittenAggregates

/-!
# Grouped queries stay grouped

What a query groups by is decided when it is planned, and what is written of it depends on the dialect. A
query that groups has a clause GROUP BY unless the dialect leaves out constants and the query groups by
nothing else. Then it still has one row for all, and not one for each row of its table, if it selects an
aggregate.
-/

namespace CubeSql

namespace Sql

theorem GroupItem.written?_eq_none {s : Spelling} {items : List SelectItem} {g : GroupItem} :
    g.written? s items = none ↔ ∀ e ∈ g.exprs, groupTerm? s items e = none := by
  cases g with
  | expr e => simp [written?, exprs]
  | rollup args =>
    have hnone : (args.map fun members => members.filterMap (groupTerm? s items)).filter (!·.isEmpty) = [] ↔
        ∀ e ∈ args.flatten, groupTerm? s items e = none := by
      simp only [List.filter_eq_nil_iff, List.forall_mem_map, List.mem_flatten]
      constructor
      · rintro h e ⟨members, hmembers, he⟩
        exact List.filterMap_eq_nil_iff.mp (by simpa using h members hmembers) e he
      · intro h members hmembers
        simpa using fun e he => h e ⟨members, hmembers, he⟩
    rw [exprs, ← hnone, written?]
    cases (args.map fun members => members.filterMap (groupTerm? s items)).filter (!·.isEmpty) <;> simp

namespace Query

/-- All that the query groups by is constant. -/
def GroupsConstants (q : Query) : Prop := ∀ e ∈ q.groupExprs, (groupedExpr q.items e).isLiteral = true

/-- The query selects an expression with an aggregate in it, and the aggregate stands in its text. -/
def SelectsAggregate (d : Dialect) (q : Query) : Prop :=
  ∃ i ∈ q.items, i.expr.writesAggregate = true ∧ HasAggregate d.spelling (i.expr.text d.spelling)

/-- As it is written, the query has one row for each group or one for all. -/
def StaysGrouped (d : Dialect) (q : Query) : Prop := q.HasGroupBy d.spelling ∨ q.SelectsAggregate d

theorem writtenGroups_eq_nil {s : Spelling} {q : Query} :
    q.writtenGroups s = [] ↔ ∀ e ∈ q.groupExprs, groupTerm? s q.items e = none := by
  rw [writtenGroups, List.filterMap_eq_nil_iff]
  simp only [GroupItem.written?_eq_none, Select.groupExprs, List.mem_flatMap]
  constructor
  · rintro h e ⟨g, hg, he⟩
    exact h g hg e he
  · intro h g hg e he
    exact h e ⟨g, hg, he⟩

/-- No entry of GROUP BY is empty. -/
theorem SingleRollup.groupExprs_ne_nil {q : Query} (h : q.SingleRollup) (hgroups : q.groups ≠ []) :
    q.groupExprs ≠ [] := by
  obtain ⟨es, args, heq, hargs⟩ := h
  rw [Select.groupExprs, heq]
  intro hnil
  rw [List.flatMap_append, List.append_eq_nil_iff] at hnil
  cases es with
  | cons e es => exact absurd hnil.1 (by simp [GroupItem.exprs])
  | nil =>
    cases args with
    | nil => exact hgroups heq
    | cons arg args =>
      have hempty : ∀ members ∈ arg :: args, members = [] := by
        simpa [rollupOf, GroupItem.exprs] using hnil.2
      exact hargs arg List.mem_cons_self (hempty arg List.mem_cons_self)

theorem writtenGroups_ne_nil_of_alias {s : Spelling} {q : Query} (hs : s.groupsByAlias = true)
    (h : q.SingleRollup) (hgroups : q.groups ≠ []) : q.writtenGroups s ≠ [] := by
  intro hnil
  obtain ⟨e, he⟩ := List.exists_mem_of_ne_nil _ (h.groupExprs_ne_nil hgroups)
  have hnone := writtenGroups_eq_nil.mp hnil e he
  rw [groupTerm?_of_alias hs] at hnone
  cases hnone

theorem writtenGroups_eq_nil_of_expr {s : Spelling} {q : Query} (hs : s.groupsByAlias = false) :
    q.writtenGroups s = [] ↔ q.GroupsConstants := by
  rw [writtenGroups_eq_nil, groupTerm?_of_expr hs]
  simp [groupedTerm?, GroupsConstants]

/-- The clause GROUP BY is missing only where a dialect leaves out constants and nothing else is grouped by. -/
theorem SingleRollup.hasGroupBy_iff {q : Query} (h : q.SingleRollup) (hgroups : q.groups ≠ [])
    (d : Dialect) : q.HasGroupBy d.spelling ↔ ¬ (d = .postgres ∧ q.GroupsConstants) := by
  rw [Query.hasGroupBy_iff]
  cases d with
  | duckdb => simpa using writtenGroups_ne_nil_of_alias rfl h hgroups
  | bigquery => simpa using writtenGroups_ne_nil_of_alias rfl h hgroups
  | postgres => simpa using (writtenGroups_eq_nil_of_expr rfl).not

end Query

end Sql

namespace Plan.Resolved

variable {r : Request} {settings : Settings} {p : Plan}

/-- Every query that groups selects all metrics. -/
theorem metric_item_mem_levels (h : Resolved r settings p) {collapsed : List String} {q : Sql.Query}
    (hq : q ∈ Sql.Query.levels (p.query collapsed)) (hgroups : q.groups ≠ []) :
    ∀ m ∈ p.selection.metrics, m.item ∈ q.items := by
  intro m hm
  have hitem : m.item ∈ p.selection.metrics.map MetricColumn.item := List.mem_map_of_mem hm
  rcases h.mem_levels_query hq with rfl | ⟨c, -, rfl⟩ | rfl
  · exact List.mem_append_right _ hitem
  · exact List.mem_append_right _ hitem
  · exact absurd rfl hgroups

/-- A query that groups selects an aggregate if there is a metric with one in which all calls fit. -/
theorem selectsAggregate (h : Resolved r settings p) {collapsed : List String} {q : Sql.Query}
    (hq : q ∈ Sql.Query.levels (p.query collapsed)) (hgroups : q.groups ≠ []) {m : Metric}
    (hm : m ∈ r.metrics) (hagg : m.field.definition.isAggregate = true)
    (hfit : m.field.definition.callsFit = true) (d : Sql.Dialect) : Sql.Query.SelectsAggregate d q := by
  obtain ⟨col, hcol, hres⟩ := exists_right_of_forall₂ h.selection.metrics hm
  obtain ⟨e, he, rfl⟩ := Metric.resolve_eq_ok.mp hres
  have hwrites : e.writesAggregate = true := Expr.writesAggregate_of_lowerWith he hfit hagg
  exact ⟨_, h.metric_item_mem_levels hq hgroups _ hcol, hwrites, Sql.Expr.hasAggregate_text hwrites⟩

end Plan.Resolved

/-! ## Statements -/

/-- In a compiled request all of whose metrics are aggregates, a query that groups has a clause GROUP BY in
every dialect, except that PostgreSQL does not group by constants alone. It stays grouped, by the clause or by
an aggregate, in every dialect but PostgreSQL, and there also unless it groups by constants alone and there is
no metric in which all calls fit. -/
theorem grouped_queries_stay_grouped {r : Request} {settings : Settings} {c : Compilation}
    (h : Compilation.ofRequest r settings = .ok c)
    (hmetrics : ∀ m ∈ r.metrics, m.field.definition.isAggregate = true) :
    ∀ s ∈ c.statements, ∀ q ∈ Sql.Query.levels s.query, q.groups ≠ [] → ∀ d : Sql.Dialect,
      (Sql.Query.HasGroupBy d.spelling q ↔ ¬ (d = .postgres ∧ Sql.Query.GroupsConstants q)) ∧
      ((d = .postgres → Sql.Query.GroupsConstants q →
          ∃ m ∈ r.metrics, m.field.definition.callsFit = true) →
        Sql.Query.StaysGrouped d q) := by
  obtain ⟨p, hp, rfl⟩ := Compilation.ofRequest_eq_ok.mp h
  intro s hs q hq hgroups d
  rw [Compilation.query_of_mem hs] at hq
  have hclause := (hp.singleRollup_levels _ q hq).hasGroupBy_iff hgroups d
  refine ⟨hclause, fun hfit => ?_⟩
  by_cases hconstant : d = .postgres ∧ Sql.Query.GroupsConstants q
  · obtain ⟨m, hm, hcalls⟩ := hfit hconstant.1 hconstant.2
    exact .inr (hp.selectsAggregate hq hgroups hm (hmetrics m hm) hcalls d)
  · exact .inl (hclause.mpr hconstant)

/-- Clicks by country, with their total. -/
def Request.totalledClicks : Request where
  table := "clicks"
  joins := []
  dimensions := [.totalled .country]
  metrics := [⟨.clicks⟩]
  filters := []
  references := []
  rollup := []
  limit := none
  offset := none

/-- The countries alone, with their total. -/
def Request.totalledCountries : Request := { Request.totalledClicks with metrics := [] }

/-- Whether the query groups and nothing is written of its entries. -/
def Sql.Query.dropsGroups (d : Sql.Dialect) (q : Sql.Query) : Bool :=
  !q.groups.isEmpty && (q.writtenGroups d.spelling).isEmpty

/-- PostgreSQL drops the entry of the country from its total, which remains one row for all clicks. -/
theorem grouped_queries_stay_grouped_totalledClicks :
    ∃ c, Compilation.ofRequest .totalledClicks .default = .ok c ∧
      (∀ m ∈ Request.totalledClicks.metrics, m.field.definition.isAggregate = true) ∧
      (∃ s ∈ c.statements, ∃ q ∈ Sql.Query.levels s.query, Sql.Query.dropsGroups .postgres q = true) ∧
      ∀ s ∈ c.statements, ∀ q ∈ Sql.Query.levels s.query, q.groups ≠ [] → ∀ d : Sql.Dialect,
        Sql.Query.StaysGrouped d q := by
  have hmetrics : ∀ m ∈ Request.totalledClicks.metrics, m.field.definition.isAggregate = true := by
    decide
  have hfit : ∃ m ∈ Request.totalledClicks.metrics, m.field.definition.callsFit = true := by decide
  have hdrops : (Compilation.ofRequest .totalledClicks .default).toOption.map (fun c =>
      c.statements.any fun s => (Sql.Query.levels s.query).any (Sql.Query.dropsGroups .postgres)) =
      some true := by
    decide +kernel
  obtain ⟨c, hc⟩ : ∃ c, Compilation.ofRequest .totalledClicks .default = .ok c :=
    exists_of_isOk (by decide +kernel)
  rw [hc] at hdrops
  refine ⟨c, hc, hmetrics, ?_, fun s hs q hq hgroups d => ?_⟩
  · simpa using Option.some.inj hdrops
  · exact (grouped_queries_stay_grouped hc hmetrics s hs q hq hgroups d).2 fun _ _ => hfit

/-- Without a metric, the total of the countries has one row for each click in PostgreSQL. -/
theorem total_not_grouped_totalledCountries :
    ∃ c, Compilation.ofRequest .totalledCountries .default = .ok c ∧
      (∀ m ∈ Request.totalledCountries.metrics, m.field.definition.isAggregate = true) ∧
      ∃ s ∈ c.statements, ∃ q ∈ Sql.Query.levels s.query, q.groups ≠ [] ∧
        ¬ Sql.Query.StaysGrouped .postgres q := by
  have hmetrics : ∀ m ∈ Request.totalledCountries.metrics, m.field.definition.isAggregate = true := nofun
  have hdrops : (Compilation.ofRequest .totalledCountries .default).toOption.map (fun c =>
      c.statements.any fun s => (Sql.Query.levels s.query).any fun q =>
        Sql.Query.dropsGroups .postgres q && q.items.all fun i => !i.expr.writesAggregate) =
      some true := by
    decide +kernel
  obtain ⟨c, hc⟩ : ∃ c, Compilation.ofRequest .totalledCountries .default = .ok c :=
    exists_of_isOk (by decide +kernel)
  rw [hc] at hdrops
  obtain ⟨s, hs, hany⟩ := List.any_eq_true.mp (Option.some.inj hdrops)
  obtain ⟨q, hq, hlost⟩ := List.any_eq_true.mp hany
  obtain ⟨hdropped, hnone⟩ := Bool.and_eq_true_iff.mp hlost
  obtain ⟨hgroups, hwritten⟩ := Bool.and_eq_true_iff.mp hdropped
  refine ⟨c, hc, hmetrics, s, hs, q, hq, by simpa using hgroups, ?_⟩
  rintro (hclause | ⟨i, hi, hwrites, -⟩)
  · exact Sql.Query.hasGroupBy_iff.mp hclause (List.isEmpty_iff.mp hwritten)
  · have hsilent := List.all_eq_true.mp hnone i hi
    rw [hwrites] at hsilent
    cases hsilent

end CubeSql
