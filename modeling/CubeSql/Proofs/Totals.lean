import CubeSql.Proofs.Projection

/-!
# Totals

The totals statements of a request are its base statement with the totals marker in place of some dimensions.
The marker is selected in the base query and in every comparison query alike, and where it stands for the
dimension along which a comparison looks back there is nothing left to move in time. Nothing else changes.
-/

namespace CubeSql

/-! ## Collapsing dimensions in a query -/

namespace Sql

/-- The item with the marker as its expression, if its alias is one of the given ones. -/
def SelectItem.marked (marker : String) (aliases : List String) (i : SelectItem) : SelectItem :=
  if i.aliasName ∈ aliases.map some then { i with expr := .literal (.text marker) } else i

/-- The query with the marker selected under the given aliases. -/
def Query.marked (marker : String) (aliases : List String) (q : Query) : Query :=
  { q with items := q.items.map (SelectItem.marked marker aliases) }

/-- The source with the marker selected in its query, if it is one. -/
def Source.marked (marker : String) (aliases : List String) : Source → Source
  | .table name aliasName => .table name aliasName
  | .derived q aliasName => .derived (Query.marked marker aliases q) aliasName

/-- The condition without the span of time, if it equates the given column with an expression less a
span. -/
def Expr.unshifted (c : ColumnRef) : Expr → Expr
  | .binary (.of .eq) (.column t a) (.binary (.of .subtract) e (.interval quantity unit)) =>
    if (t, a) = c then eq (.column t a) e else eq (.column t a) (e.minus (.interval quantity unit))
  | e => e

end Sql

/-- The join of a reference's comparison after the dimensions of the given keys are collapsed. -/
def Reference.collapsed (marker : String) (keys : List String) (x : Reference) (j : Sql.QueryJoin) :
    Sql.QueryJoin :=
  { j with
    source := j.source.marked marker (keys.map aliasFor)
    on := if x.dimension ∈ keys then
        j.on.map (Sql.Expr.unshifted (some Plan.baseAlias, aliasFor x.dimension))
      else j.on }

/-- The query of a statement after the dimensions of the given keys are collapsed. -/
def Request.collapsed (r : Request) (marker : String) (keys : List String) (q : Sql.Query) : Sql.Query :=
  if r.references.isEmpty then Sql.Query.marked marker (keys.map aliasFor) q
  else { q with
    source := q.source.marked marker (keys.map aliasFor)
    joins := List.zipWith (Reference.collapsed marker keys) r.references q.joins }

/-- The keys of the totalled dimensions, in request order. -/
def Request.totalsKeys (r : Request) : List String :=
  (r.dimensions.filter Dimension.isTotals).map Dimension.key

namespace Plan

variable {r : Request} {settings : Settings} {p : Plan}

theorem marked_dimensionItem (p : Plan) (keys : List String) (d : DimensionColumn) :
    (p.dimensionItem [] d).marked p.settings.totalsMarker (keys.map aliasFor) =
      p.dimensionItem keys d := by
  have hmem : some d.aliasName ∈ (keys.map aliasFor).map some ↔ d.key ∈ keys := by
    simp [DimensionColumn.aliasName, aliasFor_inj]
  unfold dimensionItem Sql.SelectItem.marked
  simp only [hmem, List.not_mem_nil, if_false]
  split_ifs <;> rfl

namespace Resolved

theorem metric_key_not_mem (h : Resolved r settings p) {m : MetricColumn}
    (hm : m ∈ p.selection.metrics) : m.key ∉ r.dimensions.map Dimension.key := by
  have hkey : m.key ∈ r.metrics.map Metric.key := by
    rw [← h.keys_metrics]
    exact List.mem_map_of_mem hm
  intro hmem
  exact (List.nodup_append.mp h.selection.keys_nodup).2.2 _ hmem _ hkey rfl

/-- Marking the select list of the base statement collapses dimensions. -/
theorem marked_items (h : Resolved r settings p) {keys : List String}
    (hkeys : ∀ key ∈ keys, key ∈ r.dimensions.map Dimension.key) (columns : List DimensionColumn) :
    (p.items [] columns).map (Sql.SelectItem.marked settings.totalsMarker (keys.map aliasFor)) =
      p.items keys columns := by
  have hmetric : ∀ m ∈ p.selection.metrics,
      m.item.marked settings.totalsMarker (keys.map aliasFor) = m.item := by
    intro m hm
    refine if_neg fun hmem => h.metric_key_not_mem hm (hkeys _ ?_)
    simpa [MetricColumn.item, MetricColumn.aliasName, aliasFor_inj] using hmem
  rw [items, items, List.map_append, List.map_map, List.map_map, ← h.settings]
  congr 1
  · exact List.map_congr_left fun d _ => p.marked_dimensionItem keys d
  · rw [h.settings]
    exact List.map_congr_left hmetric

theorem marked_baseQuery (h : Resolved r settings p) {keys : List String}
    (hkeys : ∀ key ∈ keys, key ∈ r.dimensions.map Dimension.key) :
    Sql.Query.marked settings.totalsMarker (keys.map aliasFor) (p.baseQuery []) = p.baseQuery keys := by
  simp only [Sql.Query.marked, baseQuery, h.marked_items hkeys]

theorem marked_comparisonQuery (h : Resolved r settings p) {keys : List String}
    (hkeys : ∀ key ∈ keys, key ∈ r.dimensions.map Dimension.key) (c : Comparison) :
    Sql.Query.marked settings.totalsMarker (keys.map aliasFor) (p.comparisonQuery [] c) =
      p.comparisonQuery keys c := by
  simp only [Sql.Query.marked, comparisonQuery, h.marked_items hkeys]

/-- Where the dimension of a comparison is collapsed, its join condition is the unshifted one. -/
theorem unshifted_joinCondition {keys : List String} {c : Comparison} (hkey : c.anchor.key ∈ keys) :
    (p.joinCondition [] c).map (Sql.Expr.unshifted (some baseAlias, c.anchor.aliasName)) =
      p.joinCondition keys c := by
  simp only [joinCondition, List.map_cons, List.map_map, if_pos hkey, if_neg List.not_mem_nil]
  congr 1
  exact if_pos rfl

theorem joinCondition_of_not_mem {keys : List String} {c : Comparison} (hkey : c.anchor.key ∉ keys) :
    p.joinCondition [] c = p.joinCondition keys c := by
  simp only [joinCondition, if_neg List.not_mem_nil, if_neg hkey]

theorem collapsed_comparisonJoin (h : Resolved r settings p) {keys : List String}
    (hkeys : ∀ key ∈ keys, key ∈ r.dimensions.map Dimension.key) {x : Reference} {c : Comparison}
    (hbind : Comparison.bind p.selection.dimensions x = .ok c) :
    x.collapsed settings.totalsMarker keys (p.comparisonJoin [] c) = p.comparisonJoin keys c := by
  have hkey := Comparison.anchor_key_of_bind hbind
  unfold Reference.collapsed comparisonJoin
  simp only [Sql.Source.marked, h.marked_comparisonQuery hkeys, Sql.JoinOf.mk.injEq, true_and]
  split_ifs with hmem
  · rw [← hkey]
    exact unshifted_joinCondition (hkey ▸ hmem)
  · exact joinCondition_of_not_mem (hkey ▸ hmem)

/-- The base query's columns are selected again by their aliases, whatever is collapsed. -/
theorem filterMap_baseItem (keys : List String) (columns : List DimensionColumn) :
    (p.items keys columns).filterMap baseItem = (p.items [] columns).filterMap baseItem := by
  rw [filterMap_baseItem_eq, filterMap_baseItem_eq, aliases_items, aliases_items]

/-- A statement is the base statement with its dimensions collapsed. -/
theorem collapsed_query (h : Resolved r settings p) {keys : List String}
    (hkeys : ∀ key ∈ keys, key ∈ r.dimensions.map Dimension.key) :
    r.collapsed settings.totalsMarker keys (p.query []) = p.query keys := by
  unfold Request.collapsed
  split_ifs with hempty
  · have hrefs : r.references = [] := List.isEmpty_iff.mp hempty
    rw [h.query_eq_baseQuery hrefs, h.query_eq_baseQuery hrefs]
    exact h.marked_baseQuery hkeys
  · have hrefs : r.references ≠ [] := fun hnil => hempty (List.isEmpty_iff.mpr hnil)
    have hjoins : List.zipWith (Reference.collapsed settings.totalsMarker keys) r.references
        (p.comparisons.map (p.comparisonJoin [])) = p.comparisons.map (p.comparisonJoin keys) :=
      zipWith_map_of_forall₂ h.comparisons fun x c hbind => h.collapsed_comparisonJoin hkeys hbind
    rw [h.query_eq_comparedQuery hrefs, h.query_eq_comparedQuery hrefs]
    have hitems : (p.baseQuery []).items.filterMap baseItem =
        (p.baseQuery keys).items.filterMap baseItem := (filterMap_baseItem keys _).symm
    simp only [comparedQuery, Sql.Source.marked, h.marked_baseQuery hkeys, hjoins, hitems]

/-! ## The totalled dimensions -/

theorem mem_totalsKeys (h : Resolved r settings p) {key : String} (hkey : key ∈ r.totalsKeys) :
    key ∈ p.grouping.totalsKeys := by
  obtain ⟨dim, hdim, rfl⟩ := List.mem_map.mp hkey
  obtain ⟨hdim, htotals⟩ := List.mem_filter.mp hdim
  obtain ⟨e, -, hcol⟩ := h.selection.exists_column hdim
  obtain ⟨c, hc, hcarries⟩ := h.exists_carrier hcol
  exact List.mem_map.mpr
    ⟨c, List.mem_filter.mpr ⟨hc, hcarries.totals.trans htotals⟩, hcarries.key⟩

/-- The totalled columns of the base query are those of the totalled dimensions. -/
theorem totals_iff (h : Resolved r settings p) {c : DimensionColumn} (hc : c ∈ p.grouping.columns) :
    c.totals = true ↔ c.key ∈ r.totalsKeys := by
  constructor
  · intro ht
    obtain ⟨d, hd, hcarries⟩ := h.exists_carried_of_totals hc ht
    obtain ⟨dim, hdim, e, -, rfl⟩ := h.selection.exists_dimension hd
    have htotals : dim.isTotals = true := hcarries.totals.symm.trans ht
    rw [hcarries.key]
    exact List.mem_map_of_mem (List.mem_filter.mpr ⟨hdim, htotals⟩)
  · intro hmem
    exact (Grouping.key_mem_filter_iff h.keys_nodup hc).mp (h.mem_totalsKeys hmem)

theorem totalsKeys_eq_filter (h : Resolved r settings p) :
    p.grouping.totalsKeys = p.grouping.keys.filter (· ∈ r.totalsKeys) :=
  Grouping.map_key_filter fun _ hc => h.totals_iff hc

theorem totalsKeys_subset (r : Request) : ∀ key ∈ r.totalsKeys, key ∈ r.dimensions.map Dimension.key :=
  fun _ hkey => (List.filter_sublist.map _).subset hkey

theorem totalsKeys_perm (h : Resolved r settings p) : p.grouping.totalsKeys.Perm r.totalsKeys := by
  have hrequest : r.totalsKeys.Nodup := by
    have hkeys : (r.dimensions.map Dimension.key).Nodup := (List.nodup_append.mp h.selection.keys_nodup).1
    exact hkeys.sublist (List.filter_sublist.map _)
  have hplan : p.grouping.totalsKeys.Nodup := h.keys_nodup.sublist (List.filter_sublist.map _)
  refine (List.perm_ext_iff_of_nodup hplan hrequest).mpr fun key => ?_
  constructor
  · intro hkey
    rw [h.totalsKeys_eq_filter] at hkey
    exact of_decide_eq_true (List.mem_filter.mp hkey).2
  · exact h.mem_totalsKeys

end Resolved

end Plan

/-! ## Statements -/

namespace Compilation

theorem collapses_eq (keys : List String) :
    collapses keys = (List.range keys.length).map fun i => keys.drop i := by
  induction keys with
  | nil => rfl
  | cons key keys ih =>
    rw [collapses, ih, List.length_cons, List.range_succ_eq_map, List.map_cons, List.map_map]
    rfl

end Compilation

/-- The statements of a compiled request are the base statement and, for each totalled dimension in output
order, the base statement with this dimension and the totalled ones after it collapsed. -/
theorem totals_collapse_base {r : Request} {settings : Settings} {c : Compilation}
    (h : Compilation.ofRequest r settings = .ok c) :
    ∃ keys base, keys = c.dimensionKeys.filter (· ∈ r.totalsKeys) ∧ keys.Perm r.totalsKeys ∧
      c.statements = ⟨.base, base⟩ :: (List.range keys.length).map fun i =>
        ⟨.totals (keys.drop i), r.collapsed settings.totalsMarker (keys.drop i) base⟩ := by
  obtain ⟨p, hp, rfl⟩ := Compilation.ofRequest_eq_ok.mp h
  refine ⟨p.grouping.totalsKeys, p.query [], hp.totalsKeys_eq_filter, hp.totalsKeys_perm, ?_⟩
  have hcollapsed : ∀ i, ∀ key ∈ p.grouping.totalsKeys.drop i, key ∈ r.dimensions.map Dimension.key := by
    intro i key hkey
    exact Plan.Resolved.totalsKeys_subset r key (hp.totalsKeys_perm.mem_iff.mp (List.mem_of_mem_drop hkey))
  show Compilation.statementsOf p = _
  rw [Compilation.statementsOf, Compilation.collapses_eq, List.map_map]
  congr 1
  refine List.map_congr_left fun i _ => ?_
  rw [hp.collapsed_query (hcollapsed i)]
  rfl

theorem totals_collapse_base_clicksByDay :
    ∃ c base, Compilation.ofRequest .clicksByDay .default = .ok c ∧ c.statements.length = 3 ∧
      c.statements.head? = some ⟨.base, base⟩ ∧ ∀ s ∈ c.statements.tail, ∃ keys, s.kind = .totals keys ∧
        s.query = Request.clicksByDay.collapsed Settings.default.totalsMarker keys base := by
  obtain ⟨c, hc⟩ := compiles_clicksByDay
  obtain ⟨keys, base, -, hperm, hstatements⟩ := totals_collapse_base hc
  have hlength : keys.length = 2 := hperm.length_eq
  refine ⟨c, base, hc, ?_, ?_, ?_⟩
  · rw [hstatements, List.length_cons, List.length_map, List.length_range, hlength]
  · rw [hstatements]
    rfl
  · intro s hs
    rw [hstatements, List.tail_cons] at hs
    obtain ⟨i, -, rfl⟩ := List.mem_map.mp hs
    exact ⟨_, rfl, rfl⟩

end CubeSql
