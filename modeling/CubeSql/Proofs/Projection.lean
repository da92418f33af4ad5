import CubeSql.Proofs.Plan

/-!
# What the queries select

Each query of a statement selects its dimension columns and all metrics, every one under an alias of its
own. For a declared dimension the base query and a comparison query select the same, unless a split stands
in its place: splits do not reach the comparisons, which select the definition of the dimension.
-/

namespace CubeSql

namespace Plan

variable {r : Request} {settings : Settings} {p : Plan}

/-- Every item is selected under the alias of its column. -/
theorem map_aliasName_items (collapsed : List String) (columns : List DimensionColumn) :
    (p.items collapsed columns).map Sql.SelectItem.aliasName =
      (columns.map DimensionColumn.aliasName ++ p.selection.metrics.map MetricColumn.aliasName).map some := by
  simp only [items, List.map_append, List.map_map]
  rfl

theorem aliases_items (collapsed : List String) (columns : List DimensionColumn) :
    (p.items collapsed columns).filterMap Sql.SelectItem.aliasName =
      columns.map DimensionColumn.aliasName ++ p.selection.metrics.map MetricColumn.aliasName :=
  filterMap_eq_of_map_eq (map_aliasName_items collapsed columns)

theorem mem_aliases_items {collapsed : List String} {columns : List DimensionColumn} {a : String} :
    a ∈ (p.items collapsed columns).filterMap Sql.SelectItem.aliasName ↔
      (∃ d ∈ columns, d.aliasName = a) ∨ ∃ m ∈ p.selection.metrics, m.aliasName = a := by
  rw [aliases_items, List.mem_append, List.mem_map, List.mem_map]

/-- The items that have an alias are selected again under it. -/
theorem filterMap_baseItem_eq (items : List Sql.SelectItem) :
    items.filterMap baseItem =
      (items.filterMap Sql.SelectItem.aliasName).map fun a => ⟨.column (some baseAlias) a, some a⟩ := by
  rw [List.map_filterMap]
  rfl

namespace Resolved

theorem aliases_baseQuery_nodup (h : Resolved r settings p) (collapsed : List String) :
    (p.baseQuery collapsed).aliases.Nodup := by
  show ((p.items collapsed p.grouping.columns).filterMap Sql.SelectItem.aliasName).Nodup
  rw [aliases_items]
  exact h.base_aliases_nodup

theorem aliases_comparisonQuery_nodup (h : Resolved r settings p) (collapsed : List String)
    (c : Comparison) : (p.comparisonQuery collapsed c).aliases.Nodup := by
  have hperm := ((h.keys_declared_perm.append_right (r.metrics.map Metric.key)).map aliasFor).nodup_iff
  show ((p.items collapsed p.declared.columns).filterMap Sql.SelectItem.aliasName).Nodup
  rw [aliases_items, DimensionColumn.map_aliasName, MetricColumn.map_aliasName, h.keys_metrics,
    ← List.map_append]
  exact hperm.mpr (h.selection.keys_nodup.map aliasFor_injective)

theorem projected_baseQuery (h : Resolved r settings p) {d : DimensionColumn}
    (hd : d ∈ p.grouping.columns) (collapsed : List String) :
    (p.baseQuery collapsed).projected d.aliasName = [(p.dimensionItem collapsed d).expr] :=
  Sql.Select.projected_eq (h.aliases_baseQuery_nodup collapsed)
    (List.mem_append_left _ (List.mem_map_of_mem hd)) rfl

theorem projected_comparisonQuery (h : Resolved r settings p) {d : DimensionColumn}
    (hd : d ∈ p.selection.dimensions) (collapsed : List String) (c : Comparison) :
    (p.comparisonQuery collapsed c).projected d.aliasName = [(p.dimensionItem collapsed d).expr] :=
  Sql.Select.projected_eq (h.aliases_comparisonQuery_nodup collapsed c)
    (List.mem_append_left _ (List.mem_map_of_mem ((mem_declared d).mpr hd))) rfl

end Resolved

end Plan

/-! ## Compared dimensions -/

/-- What a base query and a comparison query select for a dimension, in a statement that collapses the
given dimensions. -/
structure Dimension.SelectedBy (r : Request) (scope : Scope) (marker : String) (collapsed : List String)
    (base sub : Sql.Query) (d : Dimension) : Prop where
  /-- A collapsed dimension is the marker in both. -/
  marked : d.key ∈ collapsed → base.projected (aliasFor d.key) = [.literal (.text marker)] ∧
    sub.projected (aliasFor d.key) = [.literal (.text marker)]
  /-- Otherwise the comparison query selects the dimension as it is defined. -/
  compared : d.key ∉ collapsed →
    ∃ e, d.field.definition.lower scope = .ok e ∧ sub.projected (aliasFor d.key) = [e]
  /-- The base query selects the same, unless a split stands in place of the dimension. -/
  kept : (∀ s ∈ r.splits, ¬ s.Replaces d.key) →
    base.projected (aliasFor d.key) = sub.projected (aliasFor d.key)
  /-- It then selects the split. -/
  replaced : d.key ∉ collapsed → ∀ s ∈ r.splits, s.Replaces d.key →
    ∃ e, s.IsCase scope e ∧ base.projected (aliasFor d.key) = [e]

theorem Plan.Resolved.selectedBy {r : Request} {settings : Settings} {p : Plan}
    (h : Resolved r settings p) {d : Dimension} (hd : d ∈ r.dimensions) (collapsed : List String)
    (c : Comparison) : d.SelectedBy r p.selection.scope settings.totalsMarker collapsed
      (p.baseQuery collapsed) (p.comparisonQuery collapsed c) := by
  obtain ⟨e, hlower, hcol⟩ := h.selection.exists_column hd
  obtain ⟨k, hk, hcarries⟩ := h.exists_carrier hcol
  have hsub := h.projected_comparisonQuery hcol collapsed c
  have hbase := h.projected_baseQuery hk collapsed
  have hkey : k.key = d.key := hcarries.key
  simp only [DimensionColumn.aliasName, dimensionItem, hkey] at hsub hbase
  constructor
  · intro hmem
    rw [hbase, hsub, if_pos hmem, if_pos hmem, h.settings]
    exact ⟨rfl, rfl⟩
  · intro hmem
    rw [if_neg hmem] at hsub
    exact ⟨e, hlower, hsub⟩
  · intro hall
    have hexpr : k.expr = e := hcarries.kept hall
    rw [hbase, hsub, hexpr]
  · intro hmem s hs hrep
    rw [if_neg hmem] at hbase
    exact ⟨k.expr, hcarries.replaced s hs hrep, hbase⟩

/-- In every statement of a compiled request with references, a dimension is selected alike in the base
query and in each comparison query unless a split stands in its place. -/
theorem compared_dimensions_alike_unless_replaced {r : Request} {settings : Settings} {c : Compilation}
    (h : Compilation.ofRequest r settings = .ok c) (hrefs : r.references ≠ []) :
    ∃ scope, Scope.ofRequest r = .ok scope ∧ ∀ s ∈ c.statements, ∃ base,
      s.query.source = .derived base Plan.baseAlias ∧
      List.Forall₂ (fun x j => ∃ sub, j.source = .derived sub (Reference.name x) ∧ ∀ d ∈ r.dimensions,
        d.SelectedBy r scope settings.totalsMarker s.kind.collapsed base sub)
        r.references s.query.joins := by
  obtain ⟨p, hp, rfl⟩ := Compilation.ofRequest_eq_ok.mp h
  refine ⟨p.selection.scope,
    Scope.ofRequest_eq_ok.mpr ⟨hp.selection.table_not_blank, hp.selection.scope⟩, fun s hs => ?_⟩
  rw [Compilation.query_of_mem hs, hp.query_eq_comparedQuery hrefs]
  refine ⟨p.baseQuery s.kind.collapsed, rfl, hp.forall₂_joins fun x c hbind => ?_⟩
  obtain ⟨rfl, -⟩ := Comparison.bind_eq_ok.mp hbind
  exact ⟨_, rfl, fun d hd => hp.selectedBy hd s.kind.collapsed c⟩

theorem compared_day_alike_clicksByDay :
    ∃ c, Compilation.ofRequest .clicksByDay .default = .ok c ∧ ∀ s ∈ c.statements, ∃ base,
      s.query.source = .derived base Plan.baseAlias ∧
      List.Forall₂ (fun x j => ∃ sub, j.source = .derived sub (Reference.name x) ∧
        base.projected (aliasFor "day") = sub.projected (aliasFor "day"))
        Request.clicksByDay.references s.query.joins := by
  have hday : ∀ s ∈ Request.clicksByDay.splits, ¬ s.Replaces "day" := by
    intro s hs hrep
    cases List.mem_singleton.mp hs
    exact absurd hrep.2.2 (by decide)
  obtain ⟨c, hc⟩ := compiles_clicksByDay
  obtain ⟨scope, -, halike⟩ := compared_dimensions_alike_unless_replaced hc (by decide)
  refine ⟨c, hc, fun s hs => ?_⟩
  obtain ⟨base, hbase, hjoins⟩ := halike s hs
  refine ⟨base, hbase, hjoins.imp fun x j hx => ?_⟩
  obtain ⟨sub, hsub, hdims⟩ := hx
  exact ⟨sub, hsub, (hdims Request.clicksByDay.dimensions[2] (List.getElem_mem _)).kept hday⟩

/-- Devices are split into phones and others in the base query, while the comparison query selects them
as they are. -/
theorem replaced_device_not_alike_clicksByDay :
    ∃ c, Compilation.ofRequest .clicksByDay .default = .ok c ∧ ∃ s ∈ c.statements, ∃ base,
      s.query.source = .derived base Plan.baseAlias ∧
      ∃ x ∈ Request.clicksByDay.references, ∃ j ∈ s.query.joins, ∃ sub,
        j.source = .derived sub (Reference.name x) ∧
        ∃ d ∈ Request.clicksByDay.dimensions,
          base.projected (aliasFor d.key) ≠ sub.projected (aliasFor d.key) := by
  obtain ⟨c, hc⟩ := compiles_clicksByDay
  obtain ⟨p, hp, rfl⟩ := Compilation.ofRequest_eq_ok.mp hc
  have hquery := hp.query_eq_comparedQuery (by decide) []
  obtain ⟨k, hk, hbind⟩ := exists_right_of_forall₂ hp.comparisons List.mem_cons_self
  obtain ⟨hname, -⟩ := Comparison.bind_eq_ok.mp hbind
  have hmem : Request.clicksByDay.dimensions[0] ∈ Request.clicksByDay.dimensions := List.getElem_mem _
  have hselected := hp.selectedBy hmem [] k
  obtain ⟨e, hlower, hsub⟩ := hselected.compared List.not_mem_nil
  obtain ⟨s, hs, hrep⟩ : ∃ s ∈ Request.clicksByDay.splits, s.Replaces "device" :=
    ⟨_, List.mem_cons_self, rfl, rfl, rfl⟩
  obtain ⟨e', hcase, hbase⟩ := hselected.replaced List.not_mem_nil s hs hrep
  obtain ⟨q, rfl⟩ := Expr.eq_column_of_lower hlower
  cases hcase
  refine ⟨_, hc, ⟨.base, p.query []⟩, List.mem_cons_self, p.baseQuery [], ?_, k.reference, ?_,
    p.comparisonJoin [] k, ?_, p.comparisonQuery [] k, rfl, _, hmem, ?_⟩
  · rw [hquery]
    rfl
  · rw [hname]
    exact List.mem_cons_self
  · rw [hquery]
    exact List.mem_map_of_mem hk
  · rw [hbase, hsub]
    intro heq
    cases heq

end CubeSql
