import CubeSql.Proofs.Projection

/-!
# The columns of a result

All statements of a request select columns of the same names in the same order, so that their rows can be
put together. The names follow from the keys and the references that are published beside the statements.
Among the published keys, those of the rolled up columns are the ones that the rollup groups name.
-/

namespace CubeSql

/-- The name of the column in which a reference shows the compared values of a key. -/
def Reference.columnName (x : Reference) (key : String) : String := aliasFor key ++ "_" ++ x.name

/-- The names of the columns of a result: the dimensions, the metrics, and for every reference its dimension
and the metrics once more. -/
def Compilation.columnNames (c : Compilation) : List String :=
  c.dimensionKeys.map aliasFor ++ c.metricKeys.map aliasFor ++
    c.references.flatMap fun x => (x.dimension :: c.metricKeys).map x.columnName

/-- The names of the columns that are no dimensions of the base query: the metrics, and for every reference its
dimension and the metrics once more. -/
def Request.computedNames (r : Request) : List String :=
  (r.metrics.map Metric.key).map aliasFor ++
    r.references.flatMap fun x => (x.dimension :: r.metrics.map Metric.key).map x.columnName

namespace Plan

variable {r : Request} {settings : Settings} {p : Plan}

/-! ## Names -/

theorem map_aliasName_comparisonItems (p : Plan) (c : Comparison) :
    (p.comparisonItems c).map Sql.SelectItem.aliasName =
      (c.columnAlias c.anchor.aliasName ::
        p.selection.metrics.map fun m => c.columnAlias m.aliasName).map some := by
  rw [comparisonItems, List.map_cons, List.map_cons, List.map_map, List.map_map]
  rfl

/-- The query around the comparisons selects the base query's columns and then those of the comparisons. -/
theorem map_aliasName_comparedQuery (p : Plan) (collapsed : List String) :
    (p.comparedQuery collapsed).items.map Sql.SelectItem.aliasName = p.outputAliases.map some := by
  -- The base query's items are selected again by their aliases, so what is collapsed does not matter.
  have hbase : ((p.baseQuery collapsed).items.filterMap baseItem).map Sql.SelectItem.aliasName =
      (p.grouping.columns.map DimensionColumn.aliasName ++
        p.selection.metrics.map MetricColumn.aliasName).map some := by
    rw [filterMap_baseItem_eq, List.map_map]
    exact congrArg _ (aliases_items collapsed p.grouping.columns)
  simp only [comparedQuery, outputAliases, List.map_append, List.map_flatMap] at hbase ⊢
  rw [hbase]
  congr 1
  exact List.flatMap_congr fun c _ => p.map_aliasName_comparisonItems c

/-- Every statement selects the columns for which no two aliases may be the same. -/
theorem map_aliasName_query (p : Plan) (collapsed : List String) :
    (p.query collapsed).items.map Sql.SelectItem.aliasName = p.outputAliases.map some := by
  unfold query
  split_ifs with hempty
  · rw [outputAliases, List.isEmpty_iff.mp hempty, List.flatMap_nil, List.append_nil]
    exact map_aliasName_items collapsed p.grouping.columns
  · exact p.map_aliasName_comparedQuery collapsed

/-- Where a plan selects what a request does and compares with its references, the metrics and the comparisons
have the names that follow from the request. -/
theorem computedNames_eq {p : Plan} (hselection : Selection.Resolved r p.selection)
    (h : List.Forall₂ (fun x c => Comparison.bind p.selection.dimensions x = .ok c)
      r.references p.comparisons) :
    r.computedNames = p.selection.metrics.map MetricColumn.aliasName ++ p.comparisons.flatMap fun c =>
      c.columnAlias c.anchor.aliasName :: p.selection.metrics.map fun m => c.columnAlias m.aliasName := by
  have hcompared : ∀ x c, Comparison.bind p.selection.dimensions x = .ok c →
      (x.dimension :: p.selection.metrics.map MetricColumn.key).map x.columnName =
        c.columnAlias c.anchor.aliasName ::
          p.selection.metrics.map fun m => c.columnAlias m.aliasName := by
    intro x c hbind
    rw [← Comparison.anchor_key_of_bind hbind]
    obtain ⟨rfl, -⟩ := Comparison.bind_eq_ok.mp hbind
    rw [List.map_cons, List.map_map]
    rfl
  rw [Request.computedNames, ← hselection.keys_metrics, MetricColumn.map_aliasName, List.flatMap_def,
    List.flatMap_def, map_eq_of_forall₂ h hcompared]

theorem outputAliases_of_bind {p : Plan} (hselection : Selection.Resolved r p.selection)
    (h : List.Forall₂ (fun x c => Comparison.bind p.selection.dimensions x = .ok c)
      r.references p.comparisons) :
    p.outputAliases = p.grouping.keys.map aliasFor ++ r.computedNames := by
  rw [outputAliases, List.append_assoc, computedNames_eq hselection h, DimensionColumn.map_aliasName]
  rfl

namespace Resolved

/-- The aliases are made of the keys of the columns and of the references. -/
theorem outputAliases_eq (h : Resolved r settings p) :
    p.outputAliases = p.grouping.keys.map aliasFor ++
      (p.selection.metrics.map MetricColumn.key).map aliasFor ++
      r.references.flatMap fun x =>
        (x.dimension :: p.selection.metrics.map MetricColumn.key).map x.columnName := by
  rw [outputAliases_of_bind h.selection h.comparisons, Request.computedNames, h.keys_metrics,
    List.append_assoc]

/-! ## Rolled up columns -/

/-- The rollup groups name every rolled up column once, and no others. -/
theorem rollupKeys_perm (h : Resolved r settings p) :
    p.grouping.rollupKeys.Perm (r.rollup.flatMap RollupGroup.keys) := by
  obtain ⟨columns, kept, added, hext, hgroup⟩ := h.exists_extends
  exact Grouping.rollupKeys_of_ofRollup hgroup (hext.rollup_eq_false h.selection.rollup_eq_false)

theorem rollup_iff (h : Resolved r settings p) {c : DimensionColumn} (hc : c ∈ p.grouping.columns) :
    c.rollup = true ↔ c.key ∈ r.rollup.flatMap RollupGroup.keys := by
  rw [← h.rollupKeys_perm.mem_iff]
  exact (Grouping.key_mem_filter_iff h.keys_nodup hc).symm

theorem rollupKeys_eq_filter (h : Resolved r settings p) :
    p.grouping.rollupKeys = p.grouping.keys.filter (· ∈ r.rollup.flatMap RollupGroup.keys) :=
  Grouping.map_key_filter fun _ hc => h.rollup_iff hc

end Resolved

end Plan

/-! ## Statements -/

/-- Every statement of a compiled request selects the published columns, and the keys of the rolled up
columns are those that the rollup groups name, in the order of the columns. -/
theorem statements_share_columns {r : Request} {settings : Settings} {c : Compilation}
    (h : Compilation.ofRequest r settings = .ok c) :
    (∀ s ∈ c.statements, s.query.items.map Sql.SelectItem.aliasName = c.columnNames.map some) ∧
      c.rollupKeys = c.dimensionKeys.filter (· ∈ r.rollup.flatMap RollupGroup.keys) ∧
      c.rollupKeys.Perm (r.rollup.flatMap RollupGroup.keys) := by
  obtain ⟨p, hp, rfl⟩ := Compilation.ofRequest_eq_ok.mp h
  refine ⟨fun s hs => ?_, hp.rollupKeys_eq_filter, hp.rollupKeys_perm⟩
  rw [Compilation.query_of_mem hs, p.map_aliasName_query, hp.outputAliases_eq]
  rfl

theorem statements_share_columns_clicksByDay :
    ∃ c, Compilation.ofRequest .clicksByDay .default = .ok c ∧
      (∀ s ∈ c.statements, s.query.items.map Sql.SelectItem.aliasName =
        ["$device", "$country", "$day", "$clicks", "$day_wow_d", "$clicks_wow_d"].map some) ∧
      c.rollupKeys.Perm ["country"] := by
  obtain ⟨c, hc⟩ := compiles_clicksByDay
  obtain ⟨hcolumns, -, hrolled⟩ := statements_share_columns hc
  have hnames : (Compilation.ofRequest .clicksByDay .default).toOption.map Compilation.columnNames =
      some ["$device", "$country", "$day", "$clicks", "$day_wow_d", "$clicks_wow_d"] := by
    decide +kernel
  rw [hc] at hnames
  refine ⟨c, hc, fun s hs => ?_, hrolled⟩
  rw [hcolumns s hs, Option.some.inj hnames]

end CubeSql
