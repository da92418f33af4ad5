import CubeSql.Compilation
import CubeSql.Proofs.Grouping
import CubeSql.Proofs.Split
import Mathlib.Data.List.Nodup

/-!
# Plans and compilations

What is known of a compiled request: its references are bound to declared date dimensions under different
names, no two of its columns share an alias, and the base query holds every declared column. Its statements
are those of one plan, each for the dimensions that its role collapses.
-/

namespace CubeSql

theorem aliasFor_inj {a b : String} : aliasFor a = aliasFor b ↔ a = b := String.append_right_inj _

theorem aliasFor_injective : Function.Injective aliasFor := fun _ _ => aliasFor_inj.mp

theorem DimensionColumn.map_aliasName (columns : List DimensionColumn) :
    columns.map aliasName = (columns.map key).map aliasFor := by
  rw [List.map_map]
  rfl

theorem MetricColumn.map_aliasName (columns : List MetricColumn) :
    columns.map aliasName = (columns.map key).map aliasFor := by
  rw [List.map_map]
  rfl

/-! ## References -/

theorem Reference.name_ne_baseAlias (x : Reference) : x.name ≠ Plan.baseAlias := by
  obtain ⟨kind, modifier, dimension⟩ := x
  cases kind <;> cases modifier <;> exact of_decide_eq_true rfl

namespace Comparison

theorem bind_eq_ok {declared : List DimensionColumn} {x : Reference} {c : Comparison} :
    bind declared x = .ok c ↔ c.reference = x ∧
      declared.find? (·.key == x.dimension) = some c.anchor ∧ c.anchor.dataType = .date := by
  unfold bind
  cases declared.find? (·.key == x.dimension) with
  | none => simp
  | some anchor =>
    obtain ⟨reference, anchor'⟩ := c
    simp only
    split_ifs with hdate
    · simp only [Except.ok.injEq, mk.injEq, Option.some.injEq]
      constructor
      · rintro ⟨rfl, rfl⟩
        exact ⟨rfl, rfl, hdate⟩
      · rintro ⟨rfl, rfl, -⟩
        exact ⟨rfl, rfl⟩
    · simp only [false_iff, Option.some.injEq]
      rintro ⟨-, rfl, hdate'⟩
      exact hdate hdate'

theorem anchor_mem_of_bind {declared : List DimensionColumn} {x : Reference} {c : Comparison}
    (h : bind declared x = .ok c) : c.anchor ∈ declared :=
  List.mem_of_find?_eq_some (bind_eq_ok.mp h).2.1

theorem anchor_key_of_bind {declared : List DimensionColumn} {x : Reference} {c : Comparison}
    (h : bind declared x = .ok c) : c.anchor.key = x.dimension := by
  simpa using List.find?_some (bind_eq_ok.mp h).2.1

theorem bindAll_eq_ok {declared : List DimensionColumn} {seen : List String} {refs : List Reference}
    {cs : List Comparison} :
    bindAll declared seen refs = .ok cs ↔
      List.Forall₂ (fun x c => bind declared x = .ok c) refs cs ∧ (refs.map Reference.name).Nodup ∧
        ∀ x ∈ refs, x.name ∉ seen := by
  induction refs generalizing seen cs with
  | nil => simp [bindAll, eq_comm]
  | cons x refs ih =>
    unfold bindAll
    simp only [guarded_eq_ok, CubeSql.bind_eq_ok, pure_eq_ok, ih, List.mem_cons, not_or, List.map_cons,
      List.nodup_cons, List.mem_map, not_exists, not_and]
    constructor
    · rintro ⟨hseen, c, hc, cs', ⟨hcs, hn, hnew⟩, rfl⟩
      refine ⟨.cons hc hcs, ⟨fun y hy => (hnew y hy).1, hn⟩, ?_⟩
      rintro y (rfl | hy)
      · exact hseen
      · exact (hnew y hy).2
    · rintro ⟨hall, ⟨hx, hn⟩, hnew⟩
      obtain ⟨c, cs', hc, hcs, rfl⟩ := List.forall₂_cons_left_iff.mp hall
      exact ⟨hnew x (.inl rfl), c, hc, cs', ⟨hcs, hn, fun y hy => ⟨hx y hy, hnew y (.inr hy)⟩⟩, rfl⟩

end Comparison

/-! ## Plans -/

namespace Plan

/-- A plan holds what a request selects, with its columns split and grouped and its references bound. -/
structure Resolved (r : Request) (settings : Settings) (p : Plan) : Prop where
  selection : Selection.Resolved r p.selection
  grouping : ∃ columns, SplitColumns.ofSplits p.selection.scope p.selection.dimensions
    p.selection.restrictions.splits = .ok columns ∧ Grouping.ofRollup columns r.rollup = .ok p.grouping
  comparisons : List.Forall₂ (fun x c => Comparison.bind p.selection.dimensions x = .ok c)
    r.references p.comparisons
  names_nodup : (r.references.map Reference.name).Nodup
  settings : p.settings = settings
  aliases_nodup : p.outputAliases.Nodup

theorem ofRequest_eq_ok {r : Request} {settings : Settings} {p : Plan} :
    Plan.ofRequest r settings = .ok p ↔ Resolved r settings p := by
  unfold Plan.ofRequest
  simp only [bind_eq_ok, Selection.ofRequest_eq_ok, Comparison.bindAll_eq_ok]
  constructor
  · rintro ⟨selection, hsel, columns, hcols, grouping, hgroup, comparisons, ⟨hcomp, hnames, -⟩, h⟩
    cases hrep : firstRepeated? [] (Plan.mk selection grouping comparisons settings).outputAliases with
    | some aliasName =>
      simp only [hrep] at h
      obtain ⟨_, hthrow, -⟩ := CubeSql.bind_eq_ok.mp h
      exact absurd hthrow throw_ne_ok
    | none =>
      simp only [hrep, pure_eq_ok] at h
      subst h
      exact ⟨hsel, ⟨columns, hcols, hgroup⟩, hcomp, hnames, rfl, (firstRepeated?_eq_none.mp hrep).2⟩
  · intro h
    obtain ⟨columns, hcols, hgroup⟩ := h.grouping
    obtain ⟨selection, grouping, comparisons, _⟩ := p
    cases h.settings
    refine ⟨selection, h.selection, columns, hcols, grouping, hgroup, comparisons,
      ⟨h.comparisons, h.names_nodup, by simp⟩, ?_⟩
    have hrep := firstRepeated?_eq_none.mpr ⟨fun k _ => List.not_mem_nil, h.aliases_nodup⟩
    simp only [hrep]
    rfl

namespace Resolved

variable {r : Request} {settings : Settings} {p : Plan}

/-- No two columns of the base query share an alias. -/
theorem base_aliases_nodup (h : Resolved r settings p) :
    (p.grouping.columns.map DimensionColumn.aliasName ++
      p.selection.metrics.map MetricColumn.aliasName).Nodup :=
  (List.nodup_append.mp h.aliases_nodup).1

/-- No two columns of the base query share a key. -/
theorem keys_nodup (h : Resolved r settings p) : (p.grouping.columns.map DimensionColumn.key).Nodup := by
  have hcols := (List.nodup_append.mp h.base_aliases_nodup).1
  rw [DimensionColumn.map_aliasName] at hcols
  exact List.Nodup.of_map _ hcols

/-- The declared columns have the keys of the request's dimensions. -/
theorem keys_dimensions (h : Resolved r settings p) :
    p.selection.dimensions.map DimensionColumn.key = r.dimensions.map Dimension.key :=
  h.selection.keys_dimensions

/-- The metric columns have the keys of the request's metrics. -/
theorem keys_metrics (h : Resolved r settings p) :
    p.selection.metrics.map MetricColumn.key = r.metrics.map Metric.key :=
  h.selection.keys_metrics

theorem keys_dimensions_nodup (h : Resolved r settings p) :
    (p.selection.dimensions.map DimensionColumn.key).Nodup := by
  rw [h.keys_dimensions]
  exact (List.nodup_append.mp h.selection.keys_nodup).1

theorem grouped_of_mem_dimensions (h : Resolved r settings p) {d : DimensionColumn}
    (hd : d ∈ p.selection.dimensions) : d.grouped = true := by
  obtain ⟨_, -, e, -, rfl⟩ := h.selection.exists_dimension hd
  rfl

theorem declared_perm (p : Plan) : p.declared.columns.Perm p.selection.dimensions :=
  Grouping.flaggedLast_perm _

theorem mem_declared (d : DimensionColumn) : d ∈ p.declared.columns ↔ d ∈ p.selection.dimensions :=
  (declared_perm p).mem_iff

/-- The comparison queries group by columns with the keys of the request's dimensions. -/
theorem keys_declared_perm (h : Resolved r settings p) :
    (p.declared.columns.map DimensionColumn.key).Perm (r.dimensions.map Dimension.key) := by
  rw [← h.keys_dimensions]
  exact (declared_perm p).map _

theorem grouped_declared (h : Resolved r settings p) : p.declared.grouped = p.declared.columns :=
  List.filter_eq_self.mpr fun d hd => h.grouped_of_mem_dimensions ((mem_declared d).mp hd)

theorem keys_declared_nodup (h : Resolved r settings p) :
    (p.declared.columns.map DimensionColumn.key).Nodup :=
  ((declared_perm p).map _).nodup_iff.mpr h.keys_dimensions_nodup

theorem isEmpty_comparisons (h : Resolved r settings p) :
    p.comparisons.isEmpty = true ↔ r.references = [] := by
  rw [List.isEmpty_iff_length_eq_zero, ← h.comparisons.length_eq, List.length_eq_zero_iff]

/-- Without references a statement is the base query. -/
theorem query_eq_baseQuery (h : Resolved r settings p) (hrefs : r.references = [])
    (collapsed : List String) : p.query collapsed = p.baseQuery collapsed :=
  if_pos (h.isEmpty_comparisons.mpr hrefs)

/-- With references it is the query around the base query and the comparisons. -/
theorem query_eq_comparedQuery (h : Resolved r settings p) (hrefs : r.references ≠ [])
    (collapsed : List String) : p.query collapsed = p.comparedQuery collapsed :=
  if_neg fun hempty => hrefs (h.isEmpty_comparisons.mp hempty)

/-- The comparisons have the names of the references. -/
theorem names_comparisons (h : Resolved r settings p) :
    p.comparisons.map Comparison.name = r.references.map Reference.name := by
  refine (map_eq_of_forall₂ h.comparisons fun x c hbind => ?_).symm
  obtain ⟨rfl, -⟩ := Comparison.bind_eq_ok.mp hbind
  rfl

/-- Each comparison query is joined under the name of its reference. -/
theorem aliases_joins (h : Resolved r settings p) (collapsed : List String) :
    ((p.comparedQuery collapsed).joins.map Sql.JoinOf.source).map Sql.Source.aliasName? =
      (r.references.map Reference.name).map some := by
  rw [← h.names_comparisons, comparedQuery, List.map_map, List.map_map, List.map_map]
  rfl

theorem anchor_mem (h : Resolved r settings p) {c : Comparison} (hc : c ∈ p.comparisons) :
    c.anchor ∈ p.selection.dimensions := by
  obtain ⟨x, -, hbind⟩ := exists_left_of_forall₂ h.comparisons hc
  exact Comparison.anchor_mem_of_bind hbind

/-- What holds of the join of every bound reference relates the references to the joins of a statement. -/
theorem forall₂_joins (h : Resolved r settings p) {collapsed : List String}
    {R : Reference → Sql.QueryJoin → Prop}
    (hjoin : ∀ x c, Comparison.bind p.selection.dimensions x = .ok c → R x (p.comparisonJoin collapsed c)) :
    List.Forall₂ R r.references (p.comparedQuery collapsed).joins :=
  List.forall₂_map_right_iff.mpr (h.comparisons.imp hjoin)

/-- The columns that the splits leave hold the declared ones, and no two of them share a key. -/
theorem extends_of_grouping (h : Resolved r settings p) {columns : List DimensionColumn}
    (hcols : SplitColumns.ofSplits p.selection.scope p.selection.dimensions
      p.selection.restrictions.splits = .ok columns)
    (hgroup : Grouping.ofRollup columns r.rollup = .ok p.grouping) :
    (columns.map DimensionColumn.key).Nodup ∧
      ∃ kept added, SplitColumns.Extends p.selection.scope r.splits p.selection.dimensions
        columns kept added := by
  obtain ⟨marked, hmarked, hperm⟩ := Grouping.perm_of_ofRollup hgroup
  have hkeys : columns.map DimensionColumn.key = marked.map DimensionColumn.key :=
    map_eq_of_forall₂ hmarked fun d m hdm => by rw [hdm]
  have hn : (columns.map DimensionColumn.key).Nodup := by
    rw [hkeys]
    exact (hperm.map _).nodup_iff.mp h.keys_nodup
  obtain ⟨kept, added, hext⟩ := SplitColumns.extends_of_ofSplits hcols hn
  rw [h.selection.restrictions.splits] at hext
  exact ⟨hn, kept, added, hext⟩

/-- The rollup groups order the columns that the splits leave. -/
theorem exists_extends (h : Resolved r settings p) :
    ∃ columns kept added, SplitColumns.Extends p.selection.scope r.splits p.selection.dimensions
      columns kept added ∧ Grouping.ofRollup columns r.rollup = .ok p.grouping := by
  obtain ⟨columns, hcols, hgroup⟩ := h.grouping
  obtain ⟨-, kept, added, hext⟩ := h.extends_of_grouping hcols hgroup
  exact ⟨columns, kept, added, hext, hgroup⟩

/-- The columns after the splits, of which ordering and grouping change only the rollup flags. -/
theorem exists_split_columns (h : Resolved r settings p) :
    ∃ columns kept added marked, SplitColumns.Extends p.selection.scope r.splits p.selection.dimensions
      columns kept added ∧ List.Forall₂ Grouping.Remarked columns marked ∧
      p.grouping.columns.Perm marked := by
  obtain ⟨columns, kept, added, hext, hgroup⟩ := h.exists_extends
  obtain ⟨marked, hmarked, hperm⟩ := Grouping.perm_of_ofRollup hgroup
  exact ⟨columns, kept, added, marked, hext, hmarked, hperm⟩

/-- A column of the base query that stands for a declared one. -/
structure Carries (scope : Scope) (splits : List ResultSet) (d c : DimensionColumn) : Prop where
  key : c.key = d.key
  totals : c.totals = d.totals
  grouped : c.grouped = d.grouped
  kept : (∀ s ∈ splits, ¬ s.Replaces d.key) → c.expr = d.expr
  replaced : ∀ s ∈ splits, s.Replaces d.key → s.IsCase scope c.expr

theorem carries_of_rewritten {scope : Scope} {splits : List ResultSet} {d k m : DimensionColumn}
    (hr : SplitColumns.Rewritten scope splits d k) (hm : Grouping.Remarked k m) :
    Carries scope splits d m := by
  have hexpr : m.expr = k.expr := by rw [hm]
  constructor
  · rw [hm, hr.rest]
  · rw [hm, hr.rest]
  · rw [hm, hr.rest]
  · intro hall
    rw [hexpr, hr.kept hall]
  · intro s hs hrep
    rw [hexpr]
    exact hr.replaced s hs hrep

/-- Every declared column is carried by a column of the base query. -/
theorem exists_carrier (h : Resolved r settings p) {d : DimensionColumn}
    (hd : d ∈ p.selection.dimensions) :
    ∃ c ∈ p.grouping.columns, Carries p.selection.scope r.splits d c := by
  obtain ⟨columns, kept, added, marked, hext, hmarked, hperm⟩ := h.exists_split_columns
  obtain ⟨k, hk, hdk⟩ := exists_right_of_forall₂ hext.rewritten hd
  obtain ⟨m, hm, hkm⟩ := exists_right_of_forall₂ hmarked (hext.sublist.mem hk)
  exact ⟨m, hperm.mem_iff.mpr hm, carries_of_rewritten hdk hkm⟩

/-- Only declared columns are totalled. -/
theorem exists_carried_of_totals (h : Resolved r settings p) {c : DimensionColumn}
    (hc : c ∈ p.grouping.columns) (ht : c.totals = true) :
    ∃ d ∈ p.selection.dimensions, Carries p.selection.scope r.splits d c := by
  obtain ⟨columns, kept, added, marked, hext, hmarked, hperm⟩ := h.exists_split_columns
  obtain ⟨k, hk, hkm⟩ := exists_left_of_forall₂ hmarked (hperm.mem_iff.mp hc)
  rcases List.mem_append.mp (hext.perm.mem_iff.mp hk) with hk | hk
  · obtain ⟨d, hd, hdk⟩ := exists_left_of_forall₂ hext.rewritten hk
    exact ⟨d, hd, carries_of_rewritten hdk hkm⟩
  · have hfalse := (hext.unflagged k hk).1
    rw [hkm] at ht
    exact absurd (ht.symm.trans hfalse) (by decide)

theorem inScope_column (h : Resolved r settings p) :
    ∀ c ∈ p.grouping.columns, c.expr.InScope p.selection.scope := by
  intro c hc
  obtain ⟨columns, hcols, hgroup⟩ := h.grouping
  obtain ⟨marked, hmarked, hperm⟩ := Grouping.perm_of_ofRollup hgroup
  obtain ⟨d, hd, hdc⟩ := exists_left_of_forall₂ hmarked (hperm.mem_iff.mp hc)
  have hscope := SplitColumns.inScope_of_ofSplits hcols h.selection.inScope_dimension d hd
  rw [hdc]
  exact hscope

end Resolved

end Plan

/-! ## Compilations -/

/-- The keys of the dimensions that a statement collapses. -/
def StatementKind.collapsed : StatementKind → List String
  | base => []
  | totals dimensions => dimensions

namespace Compilation

theorem ofRequest_eq_ok {r : Request} {settings : Settings} {c : Compilation} :
    ofRequest r settings = .ok c ↔ ∃ p, Plan.Resolved r settings p ∧
      ⟨statementsOf p, p.grouping.keys, p.selection.metrics.map MetricColumn.key,
        p.grouping.rollupKeys, r.references, settings.totalsMarker⟩ = c := by
  simp only [ofRequest, bind_eq_ok, pure_eq_ok, Plan.ofRequest_eq_ok]

/-- The roles of the statements for totalled dimensions of the given keys. -/
def kinds (totalled : List String) : List StatementKind := .base :: (collapses totalled).map .totals

/-- The statements are the plan's queries for the dimensions that each role collapses. -/
theorem statementsOf_eq_map (p : Plan) :
    statementsOf p = (kinds p.grouping.totalsKeys).map fun kind => ⟨kind, p.query kind.collapsed⟩ := by
  rw [kinds, List.map_cons, List.map_map]
  rfl

/-- A statement is the plan's query for the dimensions that the statement collapses. -/
theorem query_of_mem {p : Plan} {s : Statement} (hs : s ∈ statementsOf p) :
    s.query = p.query s.kind.collapsed := by
  rw [statementsOf_eq_map] at hs
  obtain ⟨kind, -, rfl⟩ := List.mem_map.mp hs
  rfl

end Compilation

/-! ## A request -/

/-- Clicks by device, country and day over two tables: devices are totalled and split into phones and
others, countries are rolled up, days are totalled and restricted, and the clicks are compared with those
of the week before. -/
def Request.clicksByDay : Request where
  table := "clicks"
  joins := [⟨"devices", .binary .eq (.column none "device_id") (.column (some "devices") "id"), .left⟩]
  dimensions := [.totalled ⟨"device", .text, .column (some "devices") "name", by decide⟩,
    .plain ⟨"country", .text, .column none "country", by decide⟩,
    .totalled ⟨"day", .date, .call (.dateTrunc .day) [.column none "at"], by decide⟩]
  metrics := [⟨"clicks", .number, .sum (.column none "clicks"), by decide⟩]
  filters := [
    .dimension ⟨⟨"at", .date, .column none "at", by decide⟩, .gte, .ofValue (.text "2024-01-01")⟩,
    .metric ⟨⟨"clicks", .number, .sum (.column none "clicks"), by decide⟩, .gt,
      .ofValue (.scalar (.number (.int 10)))⟩,
    .resultSet (.ofFilter
      ⟨⟨"device", .text, .column (some "devices") "name", by decide⟩, .eq, .ofValue (.text "phone")⟩)]
  references := [⟨.weekOverWeek, .delta, "day"⟩]
  rollup := [.single "country"]
  limit := some 100
  offset := none

theorem compiles_clicksByDay : ∃ c, Compilation.ofRequest .clicksByDay .default = .ok c :=
  exists_of_isOk (by decide +kernel)

namespace Field

/-- The country of a click. -/
def country : Field := ⟨"country", .text, .column none "country", by decide⟩

/-- The day of a click, as a table keeps it. -/
def day : Field := ⟨"day", .text, .column none "day", by decide⟩

/-- The time of a click. -/
def time : Field := ⟨"at", .date, .column none "at", by decide⟩

/-- The number of clicks. -/
def clicks : Field := ⟨"clicks", .number, .sum (.column none "clicks"), by decide⟩

end Field

end CubeSql
