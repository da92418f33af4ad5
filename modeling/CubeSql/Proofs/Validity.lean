import CubeSql.Proofs.Marks
import CubeSql.Proofs.Schema

/-!
# Valid requests

When a request compiles, said without compiling it: what it selects, which tables its definitions name, which
values its filters compare with, and which keys its splits, rollup groups and references name. The settings
play no part in it.
-/

namespace CubeSql

/-! ## Valid requests -/

/-- The filter itself, whatever it does. -/
def RequestFilter.filter : RequestFilter → Filter
  | .dimension f => f
  | .metric f => f
  | .resultSet s => s.filter

namespace Request

/-- The headings of the dimension columns: the declared ones, and those that the splits add. -/
def headings (r : Request) : List Heading :=
  r.splits.foldl (fun headings s => s.addHeading headings) (r.dimensions.map fun d => (d.key, true))

/-- The names of the columns of the result. -/
def columnNames (r : Request) : List String :=
  (r.headings.map Prod.fst).map aliasFor ++ r.computedNames

/-- What must hold of a request for it to be compiled. -/
structure Valid (r : Request) : Prop where
  nonempty : ¬ (r.dimensions = [] ∧ r.metrics = [])
  keys_nodup : (Selection.declaredKeys r).Nodup
  table_not_blank : Text.isBlank r.table = false
  joins_within : ∀ j ∈ r.joins, j.on.Within r.scope
  dimensions_within : ∀ d ∈ r.dimensions, d.field.definition.Within r.scope
  metrics_within : ∀ m ∈ r.metrics, m.field.definition.Within r.scope
  filters_fit : ∀ f ∈ r.filters, f.filter.Fits r.scope
  targets_nodup : (r.splits.filterMap ResultSet.target?).Nodup
  groups_nonempty : ∀ g ∈ r.rollup, g.keys ≠ []
  rolled_grouped : ∀ key ∈ r.rollup.flatMap RollupGroup.keys, (key, true) ∈ r.headings
  rolled_nodup : (r.rollup.flatMap RollupGroup.keys).Nodup
  names_nodup : (r.references.map Reference.name).Nodup
  dates : ∀ x ∈ r.references, ∃ d ∈ r.dimensions, d.key = x.dimension ∧ d.field.dataType = .date
  columnNames_nodup : r.columnNames.Nodup

theorem keys_nodup_of_columnNames {r : Request} (h : r.columnNames.Nodup) : (r.headings.map Prod.fst).Nodup :=
  (List.nodup_append.mp h).1.of_map _

end Request

/-! ## Filters -/

/-- What holds of all filters holds of those of each kind. -/
theorem RequestFilter.forall_filter_iff {P : Filter → Prop} {filters : List RequestFilter} :
    (∀ f ∈ filters, P f.filter) ↔ (∀ f ∈ filters.filterMap row?, P f) ∧
      (∀ f ∈ filters.filterMap group?, P f) ∧ ∀ s ∈ filters.filterMap split?, P s.filter := by
  induction filters with
  | nil => simp
  | cons f filters ih =>
    rw [List.forall_mem_cons, ih]
    cases f with
    | dimension f => simp [row?, group?, split?, filter, and_assoc]
    | metric f =>
      simp only [filter, List.filterMap_cons, row?, group?, split?, List.forall_mem_cons]
      tauto
    | resultSet s =>
      simp only [filter, List.filterMap_cons, row?, group?, split?, List.forall_mem_cons]
      tauto

/-! ## Selections -/

theorem Selection.exists_resolved_iff {r : Request} : (∃ s, Resolved r s) ↔
    ¬ (r.dimensions = [] ∧ r.metrics = []) ∧ (declaredKeys r).Nodup ∧ Text.isBlank r.table = false ∧
      (∀ j ∈ r.joins, j.on.Within r.scope) ∧ (∀ d ∈ r.dimensions, d.field.definition.Within r.scope) ∧
      (∀ m ∈ r.metrics, m.field.definition.Within r.scope) ∧
      (∀ f ∈ r.filters.filterMap RequestFilter.row?, f.Fits r.scope) ∧
      ∀ f ∈ r.filters.filterMap RequestFilter.group?, f.Fits r.scope := by
  have hjoins : (∃ qjs, List.Forall₂ (fun (jp : Join × Nat) qj => jp.1.resolve r.scope jp.2 = .ok qj)
      r.joins.zipIdx qjs) ↔ ∀ j ∈ r.joins, j.on.Within r.scope := by
    rw [exists_forall₂_iff]
    constructor
    · intro h j hj
      obtain ⟨position, hlt, rfl⟩ := List.getElem_of_mem hj
      have hposition : (r.joins[position], position) ∈ r.joins.zipIdx :=
        List.mem_zipIdx_iff_getElem?.mpr (List.getElem?_eq_getElem hlt)
      exact (Join.exists_resolve_iff hposition).mp (h _ hposition)
    · rintro h ⟨j, position⟩ hposition
      exact (Join.exists_resolve_iff hposition).mpr (h j (List.fst_mem_of_mem_zipIdx hposition))
  constructor
  · rintro ⟨s, h⟩
    have hscope : s.scope = r.scope := h.scope
    have hj := h.joins
    have hd := h.dimensions
    have hm := h.metrics
    obtain ⟨hrows, hgroups, -⟩ := h.restrictions
    rw [hscope] at hj hd hm hrows hgroups
    refine ⟨h.nonempty, h.keys_nodup, h.table_not_blank, hjoins.mp ⟨_, hj⟩, fun d hmem => ?_,
      fun m hmem => ?_, fun f hmem => ?_, fun f hmem => ?_⟩
    · exact Dimension.exists_resolve_iff.mp (exists_forall₂_iff.mp ⟨_, hd⟩ d hmem)
    · exact Metric.exists_resolve_iff.mp (exists_forall₂_iff.mp ⟨_, hm⟩ m hmem)
    · exact Filter.exists_resolve_iff.mp (exists_forall₂_iff.mp ⟨_, hrows⟩ f hmem)
    · obtain ⟨_, row, hrow, -⟩ := exists_forall₂_iff.mp ⟨_, hgroups⟩ f hmem
      exact Filter.exists_resolve_iff.mp ⟨row, hrow⟩
  · rintro ⟨hne, hkeys, htable, hj, hd, hm, hrows, hgroups⟩
    obtain ⟨joins, hjoins⟩ := hjoins.mpr hj
    obtain ⟨dimensions, hdimensions⟩ :=
      exists_forall₂_iff.mpr fun d hmem => Dimension.exists_resolve_iff.mpr (hd d hmem)
    obtain ⟨metrics, hmetrics⟩ :=
      exists_forall₂_iff.mpr fun m hmem => Metric.exists_resolve_iff.mpr (hm m hmem)
    obtain ⟨rows, hrows⟩ :=
      exists_forall₂_iff.mpr fun f hmem => Filter.exists_resolve_iff.mpr (hrows f hmem)
    have hpredicates : ∀ f ∈ r.filters.filterMap RequestFilter.group?,
        ∃ e, ∃ row, f.resolve r.scope = .ok row ∧ e = row.predicate := by
      intro f hmem
      obtain ⟨row, hrow⟩ := Filter.exists_resolve_iff.mpr (hgroups f hmem)
      exact ⟨row.predicate, row, hrow, rfl⟩
    obtain ⟨groups, hgroups⟩ := exists_forall₂_iff.mpr hpredicates
    exact ⟨⟨r.scope, joins, dimensions, metrics,
      ⟨rows, groups, r.filters.filterMap RequestFilter.split?⟩, r.limit, r.offset⟩,
      hne, hkeys, htable, rfl, hjoins, hdimensions, hmetrics, ⟨hrows, hgroups, rfl⟩, rfl, rfl⟩

/-! ## References -/

/-- Among columns of different keys, a reference can be bound exactly if its key is that of a date column. -/
theorem Comparison.exists_bind_iff {declared : List DimensionColumn} {x : Reference}
    (hn : (declared.map DimensionColumn.key).Nodup) :
    (∃ c, bind declared x = .ok c) ↔ ∃ d ∈ declared, d.key = x.dimension ∧ d.dataType = .date := by
  constructor
  · rintro ⟨c, h⟩
    exact ⟨c.anchor, anchor_mem_of_bind h, anchor_key_of_bind h, (bind_eq_ok.mp h).2.2⟩
  · rintro ⟨d, hd, hkey, hdate⟩
    have hfind : declared.find? (·.key == x.dimension) = some d := by
      cases hfound : declared.find? (·.key == x.dimension) with
      | none => exact absurd hkey (by simpa using List.find?_eq_none.mp hfound d hd)
      | some d' =>
        have hkey' : d'.key = x.dimension := by simpa using List.find?_some hfound
        rw [List.inj_on_of_nodup_map hn (List.mem_of_find?_eq_some hfound) hd (hkey'.trans hkey.symm)]
    exact ⟨⟨x, d⟩, bind_eq_ok.mpr ⟨rfl, hfind, hdate⟩⟩

namespace Selection.Resolved

variable {r : Request} {s : Selection}

theorem keys_dimensions_nodup (h : Resolved r s) : (s.dimensions.map DimensionColumn.key).Nodup := by
  rw [h.keys_dimensions]
  exact (List.nodup_append.mp h.keys_nodup).1

theorem headings_dimensions (h : Resolved r s) :
    s.dimensions.map DimensionColumn.heading = r.dimensions.map fun d => (d.key, true) := by
  refine (map_eq_of_forall₂ h.dimensions fun d c hres => ?_).symm
  obtain ⟨e, -, rfl⟩ := Dimension.resolve_eq_ok.mp hres
  rfl

theorem exists_date_iff (h : Resolved r s) {key : String} :
    (∃ c ∈ s.dimensions, c.key = key ∧ c.dataType = .date) ↔
      ∃ d ∈ r.dimensions, d.key = key ∧ d.field.dataType = .date := by
  constructor
  · rintro ⟨c, hc, hkey, hdate⟩
    obtain ⟨d, hd, e, -, rfl⟩ := h.exists_dimension hc
    exact ⟨d, hd, hkey, hdate⟩
  · rintro ⟨d, hd, hkey, hdate⟩
    obtain ⟨e, -, hc⟩ := h.exists_column hd
    exact ⟨_, hc, hkey, hdate⟩

/-- The references can be bound exactly if each of them names a date dimension. -/
theorem exists_comparisons_iff (h : Resolved r s) :
    (∃ cs, List.Forall₂ (fun x c => Comparison.bind s.dimensions x = .ok c) r.references cs) ↔
      ∀ x ∈ r.references, ∃ d ∈ r.dimensions, d.key = x.dimension ∧ d.field.dataType = .date := by
  rw [exists_forall₂_iff]
  simp only [Comparison.exists_bind_iff h.keys_dimensions_nodup, h.exists_date_iff]

/-- The splits can be applied exactly if each of them can be resolved and no two replace one field. -/
theorem exists_ofSplits_iff (h : Resolved r s) :
    (∃ columns, SplitColumns.ofSplits s.scope s.dimensions s.restrictions.splits = .ok columns) ↔
      (∀ split ∈ r.splits, split.filter.Fits r.scope) ∧ (r.splits.filterMap ResultSet.target?).Nodup := by
  have hrun : (∃ final, r.splits.foldlM (SplitColumns.apply s.scope) ⟨s.dimensions, []⟩ = .ok final) ↔
      (∀ split ∈ r.splits, split.filter.Fits s.scope) ∧ (r.splits.filterMap ResultSet.target?).Nodup := by
    rw [SplitColumns.exists_run_iff]
    simp [ResultSet.exists_isCase_iff]
  have hscope : s.scope = r.scope := h.scope
  have hsplits : s.restrictions.splits = r.splits := h.restrictions.splits
  rw [← hscope, ← hrun, hsplits]
  simp only [SplitColumns.ofSplits, bind_eq_ok, pure_eq_ok]
  constructor
  · rintro ⟨columns, final, hfinal, -⟩
    exact ⟨final, hfinal⟩
  · rintro ⟨final, hfinal⟩
    exact ⟨_, final, hfinal, rfl⟩

/-- The columns after the splits have the headings that follow from the request. -/
theorem headings_of_ofSplits (h : Resolved r s) {columns : List DimensionColumn}
    (hcols : SplitColumns.ofSplits s.scope s.dimensions s.restrictions.splits = .ok columns) :
    (columns.map DimensionColumn.heading).Perm r.headings := by
  have hsplits : s.restrictions.splits = r.splits := h.restrictions.splits
  rw [hsplits] at hcols
  simp only [SplitColumns.ofSplits, bind_eq_ok, pure_eq_ok] at hcols
  obtain ⟨final, hfinal, rfl⟩ := hcols
  refine SplitColumns.headings_of_run hfinal ?_
  rw [h.headings_dimensions]

/-- Split columns of different keys are not rolled up yet. -/
theorem rollup_eq_false_of_ofSplits (h : Resolved r s) {columns : List DimensionColumn}
    (hcols : SplitColumns.ofSplits s.scope s.dimensions s.restrictions.splits = .ok columns)
    (hn : (columns.map DimensionColumn.key).Nodup) : ∀ c ∈ columns, c.rollup = false := by
  obtain ⟨kept, added, hext⟩ := SplitColumns.extends_of_ofSplits hcols hn
  exact hext.rollup_eq_false h.rollup_eq_false

/-- The rollup groups can be marked among split columns exactly if they name grouped columns, each once. -/
theorem exists_ofRollup_iff (h : Resolved r s) {columns : List DimensionColumn}
    (hcols : SplitColumns.ofSplits s.scope s.dimensions s.restrictions.splits = .ok columns)
    (hnames : r.columnNames.Nodup) :
    (∃ g, Grouping.ofRollup columns r.rollup = .ok g) ↔ (∀ g ∈ r.rollup, g.keys ≠ []) ∧
      (∀ key ∈ r.rollup.flatMap RollupGroup.keys, (key, true) ∈ r.headings) ∧
        (r.rollup.flatMap RollupGroup.keys).Nodup := by
  have hheadings := h.headings_of_ofSplits hcols
  have hn : (columns.map DimensionColumn.key).Nodup := by
    rw [← DimensionColumn.map_fst_heading]
    exact (hheadings.map _).nodup_iff.mpr (Request.keys_nodup_of_columnNames hnames)
  rw [Grouping.exists_ofRollup_iff hn (h.rollup_eq_false_of_ofSplits hcols hn)]
  simp only [hheadings.mem_iff]

end Selection.Resolved

/-! ## Plans -/

namespace Plan

variable {r : Request} {settings : Settings} {p : Plan}

/-- The names of the result's columns follow from the headings. -/
theorem outputAliases_perm (hselection : Selection.Resolved r p.selection)
    (hcomparisons : List.Forall₂ (fun x c => Comparison.bind p.selection.dimensions x = .ok c)
      r.references p.comparisons)
    (hcolumns : (p.grouping.columns.map DimensionColumn.heading).Perm r.headings) :
    p.outputAliases.Perm r.columnNames := by
  have hkeys := hcolumns.map Prod.fst
  rw [DimensionColumn.map_fst_heading] at hkeys
  rw [outputAliases_of_bind hselection hcomparisons]
  exact (hkeys.map aliasFor).append_right _

/-- The columns of the base query have the headings that follow from the request. -/
theorem Resolved.headings_perm (h : Resolved r settings p) :
    (p.grouping.columns.map DimensionColumn.heading).Perm r.headings := by
  obtain ⟨columns, hcols, hgrouping⟩ := h.grouping
  exact (Grouping.headings_of_ofRollup hgrouping).trans (h.selection.headings_of_ofSplits hcols)

theorem Resolved.valid (h : Resolved r settings p) : r.Valid := by
  obtain ⟨hne, hkeys, htable, hjoins, hdims, hmetrics, hrows, hgroups⟩ :=
    Selection.exists_resolved_iff.mp ⟨_, h.selection⟩
  obtain ⟨columns, hcols, hgrouping⟩ := h.grouping
  obtain ⟨hsplits, htargets⟩ := h.selection.exists_ofSplits_iff.mp ⟨_, hcols⟩
  have hnames : r.columnNames.Nodup :=
    (outputAliases_perm h.selection h.comparisons h.headings_perm).nodup_iff.mp h.aliases_nodup
  obtain ⟨hnonempty, hgrouped, hrolled⟩ :=
    (h.selection.exists_ofRollup_iff hcols hnames).mp ⟨_, hgrouping⟩
  exact ⟨hne, hkeys, htable, hjoins, hdims, hmetrics,
    RequestFilter.forall_filter_iff.mpr ⟨hrows, hgroups, hsplits⟩, htargets, hnonempty, hgrouped, hrolled,
    h.names_nodup, h.selection.exists_comparisons_iff.mp ⟨_, h.comparisons⟩, hnames⟩

theorem exists_resolved_of_valid (h : r.Valid) (settings : Settings) : ∃ p, Resolved r settings p := by
  obtain ⟨hrows, hgroups, hsplits⟩ := RequestFilter.forall_filter_iff.mp h.filters_fit
  obtain ⟨s, hs⟩ := Selection.exists_resolved_iff.mpr ⟨h.nonempty, h.keys_nodup, h.table_not_blank,
    h.joins_within, h.dimensions_within, h.metrics_within, hrows, hgroups⟩
  obtain ⟨columns, hcols⟩ := hs.exists_ofSplits_iff.mpr ⟨hsplits, h.targets_nodup⟩
  obtain ⟨g, hg⟩ := (hs.exists_ofRollup_iff hcols h.columnNames_nodup).mpr
    ⟨h.groups_nonempty, h.rolled_grouped, h.rolled_nodup⟩
  obtain ⟨cs, hcs⟩ := hs.exists_comparisons_iff.mpr h.dates
  have hheadings := (Grouping.headings_of_ofRollup hg).trans (hs.headings_of_ofSplits hcols)
  exact ⟨⟨s, g, cs, settings⟩, hs, ⟨columns, hcols, hg⟩, hcs, h.names_nodup, rfl,
    (outputAliases_perm (p := ⟨s, g, cs, settings⟩) hs hcs hheadings).nodup_iff.mpr h.columnNames_nodup⟩

end Plan

/-- Exactly the valid requests compile, under any settings. -/
theorem compiles_iff_valid (r : Request) (settings : Settings) :
    (∃ c, Compilation.ofRequest r settings = .ok c) ↔ r.Valid := by
  constructor
  · rintro ⟨c, hc⟩
    obtain ⟨p, hp, -⟩ := Compilation.ofRequest_eq_ok.mp hc
    exact hp.valid
  · intro h
    obtain ⟨p, hp⟩ := Plan.exists_resolved_of_valid h settings
    exact ⟨_, Compilation.ofRequest_eq_ok.mpr ⟨p, hp, rfl⟩⟩

end CubeSql
