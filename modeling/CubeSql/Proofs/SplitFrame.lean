import CubeSql.Proofs.GroupedOrder
import CubeSql.Proofs.Isolation
import CubeSql.Proofs.Schema
import CubeSql.Proofs.Totals

/-!
# Splits restrict nothing

Two requests that differ in their splits alone have the same statements, with the same tables, conditions,
metrics, comparisons and limits. Declared columns are grouped and sorted by in the same order, and only what
the dimension columns are computed from, and the columns that the splits add, may differ.
-/

namespace CubeSql

/-! ## What may differ -/

namespace Sql

/-- The item is selected under one of the names. -/
def SelectItem.isNamed (names : List String) (i : SelectItem) : Bool :=
  i.aliasName.any (· ∈ names)

/-- Queries that may differ in their source, in what is selected under names other than `computed`, and in the
group and sort entries for columns that are not `declared`. -/
structure Query.Framed (declared computed : List String) (q q' : Query) : Prop where
  distinct : q.distinct = q'.distinct
  computedItems : q.items.filter (SelectItem.isNamed computed) = q'.items.filter (SelectItem.isNamed computed)
  declaredAliases : q.aliases.filter (· ∈ declared) = q'.aliases.filter (· ∈ declared)
  joins : q.joins = q'.joins
  restrictions : q.restrictions = q'.restrictions
  groups : q.groups.filter (GroupItem.isNamed declared) = q'.groups.filter (GroupItem.isNamed declared)
  having : q.having = q'.having
  order : (q.order.filter fun o => o.expr.isNamed declared) = q'.order.filter fun o => o.expr.isNamed declared
  limit : q.limit = q'.limit
  offset : q.offset = q'.offset

/-- The query that a query selects from, or the query itself if it selects from a table. -/
def Query.base (q : Query) : Query :=
  match q.source with
  | .table _ _ => q
  | .derived inner _ => inner

end Sql

/-- Statements of one role whose queries, and whose base queries, may differ in dimension columns alone. -/
structure Statement.Framed (declared computed : List String) (s s' : Statement) : Prop where
  kind : s.kind = s'.kind
  query : Sql.Query.Framed declared computed s.query s'.query
  sourceAlias : s.query.source.aliasName? = s'.query.source.aliasName?
  base : Sql.Query.Framed declared computed s.query.base s'.query.base
  source : s.query.base.source = s'.query.base.source

/-- Requests that differ in their splits alone. -/
structure Request.SameButSplits (r r' : Request) : Prop where
  table : r.table = r'.table
  joins : r.joins = r'.joins
  dimensions : r.dimensions = r'.dimensions
  metrics : r.metrics = r'.metrics
  filters : r.filters.filter (·.split?.isNone) = r'.filters.filter (·.split?.isNone)
  references : r.references = r'.references
  rollup : r.rollup = r'.rollup
  limit : r.limit = r'.limit
  offset : r.offset = r'.offset

/-- What is read off the filters but the splits does not change if the splits are left out. -/
theorem RequestFilter.filterMap_nonsplits {α : Type} (read : RequestFilter → Option α)
    (hsplit : ∀ s, read (.resultSet s) = none) (filters : List RequestFilter) :
    (filters.filter (·.split?.isNone)).filterMap read = filters.filterMap read := by
  rw [List.filterMap_filter]
  refine List.filterMap_congr fun f _ => ?_
  cases f with
  | dimension f => rfl
  | metric f => rfl
  | resultSet s => exact (hsplit s).symm

/-- The names of the declared columns. -/
def Request.declaredNames (r : Request) : List String := (r.dimensions.map Dimension.key).map aliasFor

/-! ## Columns -/

namespace Plan

variable {r r' : Request} {settings : Settings} {p p' : Plan}

/-- The column with its rollup flag set if its key is among the given ones. -/
def rolledUp (keys : List String) (d : DimensionColumn) : DimensionColumn :=
  { d with rollup := d.key ∈ keys }

/-- Columns of different keys are marked where the keys are rolled up. -/
theorem eq_map_rolledUp {columns marked : List DimensionColumn} {keys : List String}
    (h : List.Forall₂ Grouping.Remarked columns marked)
    (hn : (marked.map DimensionColumn.key).Nodup) (hrolled : (Grouping.rolled marked).Perm keys) :
    marked = columns.map (rolledUp keys) := by
  have hself : marked.map (rolledUp keys) = marked := by
    refine (List.map_congr_left fun m hm => ?_).trans (List.map_id marked)
    have hflag : m.rollup = decide (m.key ∈ keys) := by
      rw [Bool.eq_iff_iff, decide_eq_true_iff, ← hrolled.mem_iff]
      exact (Grouping.key_mem_filter_iff hn hm).symm
    rw [rolledUp, ← hflag]
    rfl
  rw [← hself]
  exact (map_eq_of_forall₂ h fun d m hdm => by rw [hdm]; rfl).symm

/-- Among the columns after the splits, those of the declared keys are the declared ones, rewritten. -/
theorem filter_keyed_of_extends {scope : Scope} {splits : List ResultSet}
    {declared columns kept added : List DimensionColumn}
    (h : SplitColumns.Extends scope splits declared columns kept added)
    (hn : (columns.map DimensionColumn.key).Nodup) :
    columns.filter (Grouping.keyed (declared.map DimensionColumn.key)) = kept := by
  have hkeys : kept.map DimensionColumn.key = declared.map DimensionColumn.key :=
    (map_eq_of_forall₂ h.rewritten fun d c hr => hr.key_eq.symm).symm
  have hkept : ∀ c ∈ kept, Grouping.keyed (declared.map DimensionColumn.key) c = true := by
    intro c hc
    rw [← hkeys]
    exact decide_eq_true (List.mem_map_of_mem hc)
  have hadded : ∀ c ∈ added, ¬ Grouping.keyed (declared.map DimensionColumn.key) c = true := by
    intro c hc hmem
    rw [(h.perm.map _).nodup_iff, List.map_append] at hn
    rw [← hkeys] at hmem
    exact List.disjoint_of_nodup_append hn (of_decide_eq_true hmem) (List.mem_map_of_mem hc)
  have hsublist := h.sublist.filter (Grouping.keyed (declared.map DimensionColumn.key))
  rw [List.filter_eq_self.mpr hkept] at hsublist
  refine (hsublist.eq_of_length ?_).symm
  rw [(h.perm.filter _).length_eq, List.filter_append, List.filter_eq_self.mpr hkept,
    List.filter_eq_nil_iff.mpr hadded, List.append_nil]

/-- The rollup groups mark the columns that the splits leave by their keys alone, and then order them. -/
theorem Resolved.grouping_eq (h : Resolved r settings p) {columns : List DimensionColumn}
    (hcols : SplitColumns.ofSplits p.selection.scope p.selection.dimensions
      p.selection.restrictions.splits = .ok columns)
    (hgroup : Grouping.ofRollup columns r.rollup = .ok p.grouping) :
    p.grouping = ⟨Grouping.gather (r.rollup.map RollupGroup.keys) (Grouping.flaggedLast
      (columns.map (rolledUp (r.rollup.flatMap RollupGroup.keys)))), r.rollup.map RollupGroup.keys⟩ := by
  obtain ⟨-, kept, added, hext⟩ := h.extends_of_grouping hcols hgroup
  obtain ⟨marked, hmarked, hrolled, hgrouping⟩ := Grouping.exists_marked_of_ofRollup hgroup
  rw [Grouping.rolled_eq_nil (hext.rollup_eq_false h.selection.rollup_eq_false),
    List.append_nil] at hrolled
  have hcolumns : p.grouping.columns.Perm marked := by
    rw [hgrouping]
    exact (Grouping.gather_perm _ _).trans (Grouping.flaggedLast_perm _)
  -- The keys of a plan differ, so a column is rolled up exactly if its key is named.
  have hmap := eq_map_rolledUp hmarked ((hcolumns.map _).nodup_iff.mp h.keys_nodup) hrolled
  rw [hmap] at hgrouping
  exact hgrouping

theorem Resolved.exists_rolledUp (h : Resolved r settings p) :
    ∃ columns kept added, SplitColumns.Extends p.selection.scope r.splits p.selection.dimensions
      columns kept added ∧ (columns.map DimensionColumn.key).Nodup ∧
      p.grouping = ⟨Grouping.gather (r.rollup.map RollupGroup.keys) (Grouping.flaggedLast
        (columns.map (rolledUp (r.rollup.flatMap RollupGroup.keys)))), r.rollup.map RollupGroup.keys⟩ := by
  obtain ⟨columns, hcols, hgroup⟩ := h.grouping
  obtain ⟨hn, kept, added, hext⟩ := h.extends_of_grouping hcols hgroup
  exact ⟨columns, kept, added, hext, hn, h.grouping_eq hcols hgroup⟩

theorem Resolved.groups_eq (h : Resolved r settings p) :
    p.grouping.groups = r.rollup.map RollupGroup.keys := by
  obtain ⟨columns, -, -, -, -, hgrouping⟩ := h.exists_rolledUp
  rw [hgrouping]

/-- Among the columns of a plan, those of the declared keys stand as they would without any splits, if the
rollup groups name no others. -/
theorem Resolved.bare_declared (h : Resolved r settings p)
    (hrollup : ∀ key ∈ r.rollup.flatMap RollupGroup.keys, key ∈ r.dimensions.map Dimension.key) :
    (p.grouping.columns.filter (Grouping.keyed (r.dimensions.map Dimension.key))).map DimensionColumn.bare =
      Grouping.gather (r.rollup.map RollupGroup.keys) (Grouping.flaggedLast
        ((p.selection.dimensions.map (rolledUp (r.rollup.flatMap RollupGroup.keys))).map
          DimensionColumn.bare)) := by
  obtain ⟨columns, kept, added, hext, hn, hgrouping⟩ := h.exists_rolledUp
  have hdeclared := filter_keyed_of_extends hext hn
  rw [h.keys_dimensions] at hdeclared
  have hkept : (kept.map (rolledUp (r.rollup.flatMap RollupGroup.keys))).map DimensionColumn.bare =
      (p.selection.dimensions.map (rolledUp (r.rollup.flatMap RollupGroup.keys))).map
        DimensionColumn.bare := by
    rw [List.map_map, List.map_map]
    exact (map_eq_of_forall₂ hext.rewritten fun d c hr => by rw [hr.rest]; rfl).symm
  -- What is gathered is of declared keys, so the columns that splits add lead no group and move nothing.
  have hgathered : ∀ d ∈ Grouping.flaggedLast
      (columns.map (rolledUp (r.rollup.flatMap RollupGroup.keys))),
      (Grouping.groupOf? (r.rollup.map RollupGroup.keys) d).isSome = true →
        Grouping.keyed (r.dimensions.map Dimension.key) d = true := by
    intro d hd hgroup
    obtain ⟨c, -, rfl⟩ := List.mem_map.mp ((Grouping.flaggedLast_perm _).mem_iff.mp hd)
    exact decide_eq_true (hrollup _ (of_decide_eq_true (Grouping.rollup_of_groupOf? hgroup)))
  rw [hgrouping, Grouping.filter_gather hgathered, Grouping.filter_flaggedLast, List.filter_map,
    ← Grouping.gather_map_bare, ← Grouping.flaggedLast_map_bare, ← hkept, ← hdeclared]
  rfl

/-! ## Plans -/

/-- Plans that differ in the columns that are not declared, and in what the dimension columns are computed
from. -/
structure Framed (keys : List String) (p p' : Plan) : Prop where
  facts : p.selection.SameFacts p'.selection
  havings : p.selection.restrictions.groups = p'.selection.restrictions.groups
  limit : p.selection.limit = p'.selection.limit
  offset : p.selection.offset = p'.selection.offset
  comparisons : p.comparisons = p'.comparisons
  settings : p.settings = p'.settings
  groups : p.grouping.groups = p'.grouping.groups
  columns : (p.grouping.columns.filter (Grouping.keyed keys)).map DimensionColumn.bare =
    (p'.grouping.columns.filter (Grouping.keyed keys)).map DimensionColumn.bare
  rolled : ∀ d ∈ p.grouping.columns, d.rollup = true → Grouping.keyed keys d = true
  rolled' : ∀ d ∈ p'.grouping.columns, d.rollup = true → Grouping.keyed keys d = true

theorem Resolved.framed (h : Resolved r settings p) (h' : Resolved r' settings p')
    (hsame : r.SameButSplits r')
    (hrollup : ∀ key ∈ r.rollup.flatMap RollupGroup.keys, key ∈ r.dimensions.map Dimension.key) :
    p.Framed (r.dimensions.map Dimension.key) p' := by
  have hrow := RequestFilter.filterMap_nonsplits RequestFilter.row? fun _ => rfl
  have hgroup := RequestFilter.filterMap_nonsplits RequestFilter.group? fun _ => rfl
  have hrows : r.rowFilters = r'.rowFilters := by
    rw [Request.rowFilters, Request.rowFilters, ← hrow, hsame.filters, hrow]
  have hfacts := h.selection.sameFacts h'.selection
    ⟨hsame.table, hsame.joins, hsame.dimensions, hsame.metrics, hrows⟩
  have hrollup' : ∀ key ∈ r'.rollup.flatMap RollupGroup.keys, key ∈ r'.dimensions.map Dimension.key := by
    rw [← hsame.rollup, ← hsame.dimensions]
    exact hrollup
  refine ⟨hfacts, ?_, ?_, ?_, ?_, h.settings.trans h'.settings.symm, ?_, ?_, ?_, ?_⟩
  · have hhavings := h.selection.restrictions.groups
    have hhavings' := h'.selection.restrictions.groups
    rw [← hgroup, hsame.filters, hgroup, hfacts.scope] at hhavings
    exact List.right_unique_forall₂' (fun f e e' he he' => by
      obtain ⟨row, hrow, rfl⟩ := he
      obtain ⟨row', hrow', rfl⟩ := he'
      rw [Except.ok.inj (hrow.symm.trans hrow')]) hhavings hhavings'
  · rw [h.selection.limit, hsame.limit, h'.selection.limit]
  · rw [h.selection.offset, hsame.offset, h'.selection.offset]
  · have hcomparisons := h.comparisons
    rw [hsame.references, hfacts.dimensions] at hcomparisons
    exact eq_of_forall₂_ok hcomparisons h'.comparisons
  · rw [h.groups_eq, h'.groups_eq, hsame.rollup]
  · have hbare' := h'.bare_declared hrollup'
    rw [← hsame.dimensions, ← hsame.rollup, ← hfacts.dimensions] at hbare'
    rw [h.bare_declared hrollup, hbare']
  · intro d hd hrolled
    exact decide_eq_true (hrollup d.key ((h.rollup_iff hd).mp hrolled))
  · intro d hd hrolled
    rw [hsame.dimensions]
    exact decide_eq_true (hrollup' d.key ((h'.rollup_iff hd).mp hrolled))

namespace Framed

variable {keys : List String}

theorem keys_eq (h : Framed keys p p') :
    p.grouping.keys.filter (· ∈ keys) = p'.grouping.keys.filter (· ∈ keys) := by
  have hkeys : ∀ g : Grouping, g.keys.filter (· ∈ keys) =
      ((g.columns.filter (Grouping.keyed keys)).map DimensionColumn.bare).map DimensionColumn.key := by
    intro g
    rw [Grouping.keys, List.filter_map, List.map_map]
    rfl
  rw [hkeys, hkeys, h.columns]

theorem entries_eq (h : Framed keys p p') :
    p.grouping.rollupEntries.filter (Sql.GroupItem.isNamed (keys.map aliasFor)) =
      p'.grouping.rollupEntries.filter (Sql.GroupItem.isNamed (keys.map aliasFor)) := by
  have hentries : ∀ g : Grouping, (∀ d ∈ g.columns, d.rollup = true → Grouping.keyed keys d = true) →
      g.rollupEntries.filter (Sql.GroupItem.isNamed (keys.map aliasFor)) = Grouping.rollupEntries
        ⟨(g.columns.filter (Grouping.keyed keys)).map DimensionColumn.bare, g.groups⟩ := by
    intro g hrolled
    rw [Grouping.rollupEntries_map_bare]
    exact Grouping.filter_rollupEntries fun d hd hgroup =>
      hrolled d hd (Grouping.rollup_of_groupOf? hgroup)
  rw [hentries _ h.rolled, hentries _ h.rolled', h.columns, h.groups]

theorem order_eq (h : Framed keys p p') (table : Option String) :
    ((p.grouping.orderEntries table).filter fun o => o.expr.isNamed (keys.map aliasFor)) =
      (p'.grouping.orderEntries table).filter fun o => o.expr.isNamed (keys.map aliasFor) := by
  have horder : ∀ g : Grouping,
      ((g.orderEntries table).filter fun o => o.expr.isNamed (keys.map aliasFor)) = Grouping.orderEntries
        ⟨(g.columns.filter (Grouping.keyed keys)).map DimensionColumn.bare, g.groups⟩ table := by
    intro g
    rw [Grouping.orderEntries_map_bare]
    exact Grouping.filter_orderEntries g.columns table
  rw [horder, horder, h.columns, h.groups]

end Framed

/-! ## Queries -/

theorem isNamed_baseItem {names : List String} {i j : Sql.SelectItem} (h : baseItem i = some j) :
    j.isNamed names = i.isNamed names := by
  obtain ⟨a, ha, rfl⟩ := Option.map_eq_some_iff.mp h
  rw [Sql.SelectItem.isNamed, Sql.SelectItem.isNamed, ha]

/-- Selecting a column again keeps its name. -/
theorem filter_filterMap_baseItem (names : List String) (items : List Sql.SelectItem) :
    (items.filterMap baseItem).filter (Sql.SelectItem.isNamed names) =
      (items.filter (Sql.SelectItem.isNamed names)).filterMap baseItem := by
  induction items with
  | nil => rfl
  | cons i items ih =>
    cases hi : baseItem i with
    | none =>
      rw [List.filterMap_cons_none hi, ih, List.filter_cons]
      split_ifs
      · rw [List.filterMap_cons_none hi]
      · rfl
    | some j =>
      rw [List.filterMap_cons_some hi, List.filter_cons, List.filter_cons, isNamed_baseItem hi, ih]
      split_ifs
      · rw [List.filterMap_cons_some hi]
      · rfl

theorem filter_map_aliasFor (keys among : List String) :
    (keys.map aliasFor).filter (· ∈ among.map aliasFor) = (keys.filter (· ∈ among)).map aliasFor := by
  rw [List.filter_map]
  congr 1
  refine List.filter_congr fun key _ => ?_
  simp only [Function.comp_apply, List.mem_map_of_injective aliasFor_injective]

namespace Resolved

/-- No dimension column has the name of a metric or of a compared column. -/
theorem not_isNamed_dimensionItem (h : Resolved r settings p) {d : DimensionColumn}
    (hd : d ∈ p.grouping.columns) (collapsed : List String) :
    ¬ (p.dimensionItem collapsed d).isNamed r.computedNames = true := by
  have hnodup := h.aliases_nodup
  rw [outputAliases_of_bind h.selection h.comparisons] at hnodup
  have hmem : d.aliasName ∈ p.grouping.keys.map aliasFor :=
    List.mem_map_of_mem (List.mem_map_of_mem hd)
  intro hnamed
  exact List.disjoint_of_nodup_append hnodup hmem (of_decide_eq_true hnamed)

theorem filter_items (h : Resolved r settings p) (collapsed : List String) :
    (p.items collapsed p.grouping.columns).filter (Sql.SelectItem.isNamed r.computedNames) =
      p.selection.metrics.map MetricColumn.item := by
  rw [items, List.filter_append, List.filter_eq_nil_iff.mpr, List.filter_eq_self.mpr, List.nil_append]
  · intro i hi
    obtain ⟨m, hm, rfl⟩ := List.mem_map.mp hi
    refine decide_eq_true ?_
    rw [computedNames_eq h.selection h.comparisons]
    exact List.mem_append_left _ (List.mem_map_of_mem hm)
  · intro i hi
    obtain ⟨d, hd, rfl⟩ := List.mem_map.mp hi
    exact h.not_isNamed_dimensionItem hd collapsed

theorem filter_comparisonItems (h : Resolved r settings p) :
    (p.comparisons.flatMap p.comparisonItems).filter (Sql.SelectItem.isNamed r.computedNames) =
      p.comparisons.flatMap p.comparisonItems := by
  refine List.filter_eq_self.mpr fun i hi => ?_
  obtain ⟨c, hc, hi⟩ := List.mem_flatMap.mp hi
  have halias : i.aliasName ∈ (p.comparisonItems c).map Sql.SelectItem.aliasName := List.mem_map_of_mem hi
  rw [map_aliasName_comparisonItems] at halias
  obtain ⟨a, ha, hname⟩ := List.mem_map.mp halias
  rw [Sql.SelectItem.isNamed, ← hname]
  refine decide_eq_true ?_
  rw [computedNames_eq h.selection h.comparisons]
  exact List.mem_append_right _ (List.mem_flatMap.mpr ⟨c, hc, ha⟩)

/-- The dimension columns of the declared keys are selected under the same names in the same order. -/
theorem declaredAliases_eq {keys : List String} (hframed : Framed keys p p') (names : List String) :
    (p.grouping.keys.map aliasFor ++ names).filter (· ∈ keys.map aliasFor) =
      (p'.grouping.keys.map aliasFor ++ names).filter (· ∈ keys.map aliasFor) := by
  rw [List.filter_append, List.filter_append, filter_map_aliasFor, filter_map_aliasFor, hframed.keys_eq]

theorem aliases_baseQuery (p : Plan) (collapsed : List String) : (p.baseQuery collapsed).aliases =
    p.grouping.keys.map aliasFor ++ p.selection.metrics.map MetricColumn.aliasName := by
  refine (aliases_items collapsed p.grouping.columns).trans ?_
  rw [DimensionColumn.map_aliasName]
  rfl

theorem framed_baseQuery {keys : List String} (h : Resolved r settings p) (h' : Resolved r' settings p')
    (hframed : Framed keys p p') (hnames : r.computedNames = r'.computedNames) (collapsed : List String) :
    Sql.Query.Framed (keys.map aliasFor) r.computedNames (p.baseQuery collapsed) (p'.baseQuery collapsed) where
  distinct := rfl
  computedItems := by
    have hitems := h.filter_items collapsed
    have hitems' := h'.filter_items collapsed
    rw [hframed.facts.metrics] at hitems
    rw [← hnames] at hitems'
    exact hitems.trans hitems'.symm
  declaredAliases := by
    rw [aliases_baseQuery, aliases_baseQuery, hframed.facts.metrics]
    exact declaredAliases_eq hframed _
  joins := hframed.facts.joins
  restrictions := by
    simp only [baseQuery, hframed.facts.rows]
  groups := hframed.entries_eq
  having := hframed.havings
  order := hframed.order_eq none
  limit := hframed.limit
  offset := hframed.offset

/-- The comparisons are joined alike, each as the same query under the same conditions. -/
theorem comparisonJoin_eq {keys : List String} (hframed : Framed keys p p') (collapsed : List String)
    (c : Comparison) : p.comparisonJoin collapsed c = p'.comparisonJoin collapsed c := by
  have hdeclared : p.declared = p'.declared := congrArg Grouping.declared hframed.facts.dimensions
  simp only [comparisonJoin, joinCondition, comparisonQuery_eq hframed.facts hframed.settings,
    hframed.settings, hdeclared]

theorem comparisonItems_eq {keys : List String} (hframed : Framed keys p p') (c : Comparison) :
    p.comparisonItems c = p'.comparisonItems c := by
  simp only [comparisonItems, hframed.facts.metrics, hframed.settings]

theorem framed_comparedQuery {keys : List String} (h : Resolved r settings p)
    (h' : Resolved r' settings p') (hframed : Framed keys p p')
    (hnames : r.computedNames = r'.computedNames) (collapsed : List String) :
    Sql.Query.Framed (keys.map aliasFor) r.computedNames (p.comparedQuery collapsed)
      (p'.comparedQuery collapsed) where
  distinct := rfl
  computedItems := by
    have hbase := (framed_baseQuery h h' hframed hnames collapsed).computedItems
    have hcompared := h.filter_comparisonItems
    have hcompared' := h'.filter_comparisonItems
    rw [← hnames, ← hframed.comparisons] at hcompared'
    simp only [comparedQuery, List.filter_append, filter_filterMap_baseItem, hbase, hcompared,
      ← hframed.comparisons, hcompared']
    exact congrArg _ (List.flatMap_congr fun c _ => comparisonItems_eq hframed c)
  declaredAliases := by
    have haliases := filterMap_eq_of_map_eq (p.map_aliasName_comparedQuery collapsed)
    have haliases' := filterMap_eq_of_map_eq (p'.map_aliasName_comparedQuery collapsed)
    rw [outputAliases_of_bind h.selection h.comparisons] at haliases
    rw [outputAliases_of_bind h'.selection h'.comparisons, ← hnames] at haliases'
    rw [Sql.Select.aliases, haliases, Sql.Select.aliases, haliases']
    exact declaredAliases_eq hframed _
  joins := by
    simp only [comparedQuery, hframed.comparisons]
    exact List.map_congr_left fun c _ => comparisonJoin_eq hframed collapsed c
  restrictions := rfl
  groups := rfl
  having := rfl
  order := hframed.order_eq (some baseAlias)
  limit := rfl
  offset := rfl

theorem framed_statement {keys : List String} (h : Resolved r settings p) (h' : Resolved r' settings p')
    (hframed : Framed keys p p') (hnames : r.computedNames = r'.computedNames) (kind : StatementKind) :
    Statement.Framed (keys.map aliasFor) r.computedNames ⟨kind, p.query kind.collapsed⟩
      ⟨kind, p'.query kind.collapsed⟩ := by
  have hbase := framed_baseQuery h h' hframed hnames kind.collapsed
  have hsource : p.selection.scope.baseSource = p'.selection.scope.baseSource := by
    rw [hframed.facts.scope]
  unfold query
  rw [← hframed.comparisons]
  split_ifs
  · exact ⟨rfl, hbase, congrArg _ hsource, hbase, hsource⟩
  · exact ⟨rfl, framed_comparedQuery h h' hframed hnames kind.collapsed, rfl, hbase, hsource⟩

theorem totalsKeys_eq (h : Resolved r settings p) (h' : Resolved r' settings p')
    (hframed : Framed (r.dimensions.map Dimension.key) p p') (hdimensions : r.dimensions = r'.dimensions) :
    p.grouping.totalsKeys = p'.grouping.totalsKeys := by
  have hdeclared : ∀ keys : List String, keys.filter (· ∈ r.totalsKeys) =
      (keys.filter (· ∈ r.dimensions.map Dimension.key)).filter (· ∈ r.totalsKeys) := by
    intro keys
    rw [List.filter_filter]
    refine List.filter_congr fun key _ => ?_
    have hsubset := totalsKeys_subset r key
    by_cases hmem : key ∈ r.totalsKeys <;> simp_all
  have hrequest : r'.totalsKeys = r.totalsKeys := by
    rw [Request.totalsKeys, Request.totalsKeys, hdimensions]
  rw [h.totalsKeys_eq_filter, h'.totalsKeys_eq_filter, hrequest, hdeclared, hdeclared p'.grouping.keys,
    hframed.keys_eq]

end Resolved

end Plan

/-! ## Statements -/

/-- Two compiled requests that differ in their splits alone, and roll up declared dimensions only, have
statements of the same roles in the same order. These differ in dimension columns, and in the group and sort
entries of columns that splits added, and in nothing else. -/
theorem splits_restrict_nothing {r r' : Request} {settings : Settings} {c c' : Compilation}
    (h : Compilation.ofRequest r settings = .ok c) (h' : Compilation.ofRequest r' settings = .ok c')
    (hsame : r.SameButSplits r')
    (hrollup : ∀ key ∈ r.rollup.flatMap RollupGroup.keys, key ∈ r.dimensions.map Dimension.key) :
    List.Forall₂ (Statement.Framed r.declaredNames r.computedNames) c.statements c'.statements := by
  obtain ⟨p, hp, rfl⟩ := Compilation.ofRequest_eq_ok.mp h
  obtain ⟨p', hp', rfl⟩ := Compilation.ofRequest_eq_ok.mp h'
  have hframed := hp.framed hp' hsame hrollup
  have hnames : r.computedNames = r'.computedNames := by
    rw [Request.computedNames, Request.computedNames, hsame.metrics, hsame.references]
  show List.Forall₂ _ (Compilation.statementsOf p) (Compilation.statementsOf p')
  rw [Compilation.statementsOf_eq_map, Compilation.statementsOf_eq_map,
    ← hp.totalsKeys_eq hp' hframed hsame.dimensions, List.forall₂_map_left_iff, List.forall₂_map_right_iff]
  exact List.forall₂_same.mpr fun kind _ => Plan.Resolved.framed_statement hp hp' hframed hnames kind

/-- The clicks of `Request.clicksByDay` with other splits: phones are not told from other devices, and days of
many clicks and clicks from one country are, each in a column of its own. -/
def Request.otherwiseSplitClicks : Request :=
  { Request.clicksByDay with
    filters := [
      .resultSet ⟨⟨.country, .eq, .ofValue (.text "pl")⟩, some "home", none, false, true⟩,
      .dimension ⟨.time, .gte, .ofValue (.text "2024-01-01")⟩,
      .metric ⟨.clicks, .gt, .ofValue (.scalar (.number (.int 10)))⟩,
      .resultSet (.ofFilter ⟨.clicks, .gt, .ofValue (.scalar (.number (.int 1000)))⟩)] }

theorem splits_restrict_nothing_clicksByDay :
    ∃ c c', Compilation.ofRequest .clicksByDay .default = .ok c ∧
      Compilation.ofRequest .otherwiseSplitClicks .default = .ok c' ∧
      Request.clicksByDay.SameButSplits .otherwiseSplitClicks ∧
      (∀ key ∈ Request.clicksByDay.rollup.flatMap RollupGroup.keys,
        key ∈ Request.clicksByDay.dimensions.map Dimension.key) ∧
      List.Forall₂ (Statement.Framed ["$device", "$country", "$day"]
        ["$clicks", "$day_wow_d", "$clicks_wow_d"]) c.statements c'.statements := by
  have hsame : Request.clicksByDay.SameButSplits .otherwiseSplitClicks :=
    ⟨rfl, rfl, rfl, rfl, rfl, rfl, rfl, rfl, rfl⟩
  have hrollup : ∀ key ∈ Request.clicksByDay.rollup.flatMap RollupGroup.keys,
      key ∈ Request.clicksByDay.dimensions.map Dimension.key := by
    decide
  obtain ⟨c, hc⟩ := compiles_clicksByDay
  obtain ⟨c', hc'⟩ : ∃ c', Compilation.ofRequest .otherwiseSplitClicks .default = .ok c' :=
    exists_of_isOk (by decide +kernel)
  exact ⟨c, c', hc, hc', hsame, hrollup, splits_restrict_nothing hc hc' hsame hrollup⟩

end CubeSql
