import CubeSql.Proofs.Aliases
import CubeSql.Proofs.Grouping
import CubeSql.Proofs.Lowering

/-!
# Aggregates are not grouped by

Dimensions that are free of aggregates are lowered to expressions that are. A split keeps the columns that
are grouped by free of aggregates: one by an aggregate adds a column that is selected only, and every other
one makes its column of an expression without any. So in the queries over tables no entry of GROUP BY and of
ORDER BY names a column with an aggregate in it.
-/

namespace CubeSql

/-! ## Expressions -/

/-- There is no aggregate anywhere in the expression. -/
inductive Expr.AggregateFree : Expr → Prop where
  | column (table : Option String) (name : String) : AggregateFree (.column table name)
  | literal (value : Literal) : AggregateFree (.literal value)
  | call (function : Function) {args : List Expr} (hargs : ∀ e ∈ args, AggregateFree e) :
    AggregateFree (.call function args)
  | case {branches : List (Expr × Expr)} {otherwise : Expr} (hconditions : ∀ b ∈ branches, AggregateFree b.1)
    (hresults : ∀ b ∈ branches, AggregateFree b.2) (hotherwise : AggregateFree otherwise) :
    AggregateFree (.case branches otherwise)
  | binary (op : BinaryOp) {left right : Expr} (hleft : AggregateFree left) (hright : AggregateFree right) :
    AggregateFree (.binary op left right)

/-- There is no aggregate anywhere in the SQL expression. -/
inductive Sql.Expr.AggregateFree : Expr → Prop where
  | column (table : Option String) (name : String) : AggregateFree (.column table name)
  | literal (value : Value) : AggregateFree (.literal value)
  | call (function : Function) {args : List Expr} (hargs : ∀ e ∈ args, AggregateFree e) :
    AggregateFree (.call function args)
  | case {branches : List (Expr × Expr)} {otherwise : Expr} (hconditions : ∀ b ∈ branches, AggregateFree b.1)
    (hresults : ∀ b ∈ branches, AggregateFree b.2) (hotherwise : AggregateFree otherwise) :
    AggregateFree (.case branches otherwise)
  | binary (op : Operator) {left right : Expr} (hleft : AggregateFree left) (hright : AggregateFree right) :
    AggregateFree (.binary op left right)
  | inList {subject : Expr} {items : List Expr} (negated : Bool) (hsubject : AggregateFree subject)
    (hitems : ∀ e ∈ items, AggregateFree e) : AggregateFree (.inList subject items negated)
  | between {subject low high : Expr} (hsubject : AggregateFree subject) (hlow : AggregateFree low)
    (hhigh : AggregateFree high) : AggregateFree (.between subject low high)
  | isNull {subject : Expr} (negated : Bool) (hsubject : AggregateFree subject) :
    AggregateFree (.isNull subject negated)
  | interval (quantity : Int) (unit : TimeGrain) : AggregateFree (.interval quantity unit)

namespace Expr

theorem anyAggregate_eq_false_iff {es : List Expr} :
    anyAggregate es = false ↔ ∀ e ∈ es, e.isAggregate = false := by
  induction es with
  | nil => simp [anyAggregate]
  | cons e es ih => rw [anyAggregate, Bool.or_eq_false_iff, ih, List.forall_mem_cons]

theorem anyBranchAggregate_eq_false_iff {branches : List (Expr × Expr)} :
    anyBranchAggregate branches = false ↔
      ∀ b ∈ branches, b.1.isAggregate = false ∧ b.2.isAggregate = false := by
  induction branches with
  | nil => simp [anyBranchAggregate]
  | cons b branches ih =>
    rw [anyBranchAggregate, Bool.or_eq_false_iff, Bool.or_eq_false_iff, ih, List.forall_mem_cons]

mutual

theorem aggregateFree_of_isAggregate : ∀ {e : Expr}, e.isAggregate = false → e.AggregateFree
  | .column table name, _ => .column table name
  | .literal value, _ => .literal value
  | .aggregate _ _, h => by cases h
  | .call f args, h => .call f (aggregateFree_of_anyAggregate h)
  | .case branches otherwise, h => by
    obtain ⟨hbranches, hotherwise⟩ := Bool.or_eq_false_iff.mp h
    obtain ⟨hconditions, hresults⟩ := aggregateFree_of_anyBranchAggregate hbranches
    exact .case hconditions hresults (aggregateFree_of_isAggregate hotherwise)
  | .binary op left right, h => by
    obtain ⟨hleft, hright⟩ := Bool.or_eq_false_iff.mp h
    exact .binary op (aggregateFree_of_isAggregate hleft) (aggregateFree_of_isAggregate hright)

theorem aggregateFree_of_anyAggregate : ∀ {es : List Expr}, anyAggregate es = false →
    ∀ e ∈ es, e.AggregateFree
  | [], _ => nofun
  | e :: es, h => by
    obtain ⟨he, hes⟩ := Bool.or_eq_false_iff.mp h
    exact List.forall_mem_cons.mpr ⟨aggregateFree_of_isAggregate he, aggregateFree_of_anyAggregate hes⟩

theorem aggregateFree_of_anyBranchAggregate : ∀ {branches : List (Expr × Expr)},
    anyBranchAggregate branches = false →
    (∀ b ∈ branches, b.1.AggregateFree) ∧ ∀ b ∈ branches, b.2.AggregateFree
  | [], _ => ⟨nofun, nofun⟩
  | (condition, result) :: branches, h => by
    obtain ⟨hfirst, hrest⟩ := Bool.or_eq_false_iff.mp h
    obtain ⟨hcondition, hresult⟩ := Bool.or_eq_false_iff.mp hfirst
    obtain ⟨hconditions, hresults⟩ := aggregateFree_of_anyBranchAggregate hrest
    exact ⟨List.forall_mem_cons.mpr ⟨aggregateFree_of_isAggregate hcondition, hconditions⟩,
      List.forall_mem_cons.mpr ⟨aggregateFree_of_isAggregate hresult, hresults⟩⟩

end

/-- The check for aggregates finds them wherever they are. -/
theorem isAggregate_eq_false_iff {e : Expr} : e.isAggregate = false ↔ e.AggregateFree := by
  refine ⟨aggregateFree_of_isAggregate, fun h => ?_⟩
  induction h with
  | column table name => rfl
  | literal value => rfl
  | call f hargs ih => exact anyAggregate_eq_false_iff.mpr ih
  | case hconditions hresults hotherwise ihc ihr iho =>
    exact Bool.or_eq_false_iff.mpr
      ⟨anyBranchAggregate_eq_false_iff.mpr fun b hb => ⟨ihc b hb, ihr b hb⟩, iho⟩
  | binary op hleft hright ihl ihr => exact Bool.or_eq_false_iff.mpr ⟨ihl, ihr⟩

variable {qualify : Option String → Except Error (Option String)}

/-- Lowering adds no aggregates. -/
theorem AggregateFree.of_lowerWith {e : Expr} (h : e.AggregateFree) {e' : Sql.Expr}
    (hlower : e.lowerWith qualify = .ok e') : e'.AggregateFree := by
  induction h generalizing e' with
  | column table name =>
    simp only [lowerWith, bind_eq_ok, pure_eq_ok] at hlower
    obtain ⟨q, -, rfl⟩ := hlower
    exact .column q name
  | literal value =>
    simp only [lowerWith, pure_eq_ok] at hlower
    subst hlower
    exact .literal _
  | call f hargs ih =>
    simp only [lowerWith, bind_eq_ok, pure_eq_ok] at hlower
    obtain ⟨args', hargs', rfl⟩ := hlower
    refine .call f fun e' he' => ?_
    obtain ⟨e, he, hee'⟩ := exists_left_of_forall₂ (forall₂_of_lowerAllWith hargs') he'
    exact ih e he hee'
  | case hconditions hresults hotherwise ihc ihr iho =>
    simp only [lowerWith, bind_eq_ok, pure_eq_ok] at hlower
    obtain ⟨branches', hbranches', otherwise', hotherwise', rfl⟩ := hlower
    have hlowered := forall₂_of_lowerBranchesWith hbranches'
    refine .case (fun b' hb' => ?_) (fun b' hb' => ?_) (iho hotherwise')
    · obtain ⟨b, hb, hbb'⟩ := exists_left_of_forall₂ hlowered hb'
      exact ihc b hb hbb'.1
    · obtain ⟨b, hb, hbb'⟩ := exists_left_of_forall₂ hlowered hb'
      exact ihr b hb hbb'.2
  | binary op hleft hright ihl ihr =>
    simp only [lowerWith, bind_eq_ok, pure_eq_ok] at hlower
    obtain ⟨left', hleft', right', hright', rfl⟩ := hlower
    exact .binary (.of op) (ihl hleft') (ihr hright')

end Expr

/-! ## Splits -/

/-- A condition adds no aggregates to what it is stated of. -/
theorem Condition.aggregateFree_on (k : Condition) {e : Sql.Expr} (h : e.AggregateFree) :
    (k.on e).AggregateFree := by
  cases k with
  | compare op value => exact .binary op h (.literal value)
  | oneOf values negated =>
    refine .inList negated h fun item hitem => ?_
    obtain ⟨value, -, rfl⟩ := List.mem_map.mp hitem
    exact .literal value
  | between low high => exact .between h (.literal low) (.literal high)
  | isNull negated => exact .isNull negated h

/-- What a split selects has no aggregate if the field that it splits has none. -/
theorem ResultSet.IsCase.aggregateFree {scope : Scope} {s : ResultSet} {e : Sql.Expr} (h : s.IsCase scope e)
    (hfield : s.filter.field.definition.isAggregate = false) : e.AggregateFree := by
  obtain ⟨k, subject, label, otherwise, hsubject, rfl, hotherwise⟩ := h.exists_parts
  have hfree : subject.AggregateFree := (Expr.isAggregate_eq_false_iff.mp hfield).of_lowerWith hsubject
  refine .case (List.forall_mem_singleton.mpr (k.aggregateFree_on hfree))
    (List.forall_mem_singleton.mpr (.literal _)) ?_
  rcases hotherwise with ⟨v, rfl⟩ | rfl
  · exact .literal v
  · exact hfree

namespace SplitColumns

variable {scope : Scope} {s : ResultSet} {done done' : SplitColumns}

/-- Of the columns, those that are grouped by have no aggregate in them. -/
def GroupsAggregateFree (columns : List DimensionColumn) : Prop :=
  ∀ c ∈ columns, c.grouped = true → c.expr.AggregateFree

theorem aggregateFree_step (h : Step scope s done done') (hdone : GroupsAggregateFree done.columns) :
    GroupsAggregateFree done'.columns := by
  intro c hc hgrouped
  cases h with
  | select hagg htext he =>
    rcases List.mem_append.mp hc with hc | hc
    · exact hdone c hc hgrouped
    · cases List.mem_singleton.mp hc
      cases hgrouped
  | replace hrep hnew he =>
    rcases expr_of_mem_replace hc with hexpr | hc
    · rw [hexpr]
      exact he.aggregateFree hrep.2.1
    · exact hdone c hc hgrouped
  | @insert text e hagg hrep htext he =>
    obtain ⟨before, after, hcols, hins⟩ :=
      insertAt_eq_append s.filter.field.key (.ofSet text e true) done.columns
    unfold GroupsAggregateFree at hdone
    rw [hcols] at hdone
    simp only [hins, List.mem_append, List.mem_cons] at hc
    rcases hc with hc | rfl | hc
    · exact hdone c (List.mem_append_left _ hc) hgrouped
    · exact he.aggregateFree hagg
    · exact hdone c (List.mem_append_right _ hc) hgrouped

theorem aggregateFree_of_ofSplits {splits : List ResultSet} {declared columns : List DimensionColumn}
    (h : ofSplits scope declared splits = .ok columns) (hdeclared : GroupsAggregateFree declared) :
    GroupsAggregateFree columns := by
  simp only [ofSplits, bind_eq_ok, pure_eq_ok] at h
  obtain ⟨final, hrun, rfl⟩ := h
  exact foldlM_keeps (f := apply scope) (P := fun t => GroupsAggregateFree t.columns)
    (fun _ _ _ hstep hs => aggregateFree_step (step_of_apply hstep) hs) hrun hdeclared

end SplitColumns

/-! ## Queries -/

namespace Sql.Query

/-- The query selects from tables alone. -/
def Flat (q : Query) : Prop := ∀ source ∈ q.sources, ∃ name a, source = .table name a

/-- Every entry of GROUP BY and of ORDER BY names a column of the query that has no aggregate in it. -/
def KeysAggregateFree (q : Query) : Prop :=
  ∀ e ∈ q.groupExprs ++ q.orderExprs, ∃ a x, e = .column none a ∧ q.projected a = [x] ∧ x.AggregateFree

end Sql.Query

namespace Plan

variable {r : Request} {settings : Settings} {p : Plan}

theorem aggregateFree_dimensionItem {d : DimensionColumn} (h : d.expr.AggregateFree)
    (collapsed : List String) : (p.dimensionItem collapsed d).expr.AggregateFree := by
  unfold dimensionItem
  split_ifs
  · exact .literal _
  · exact h

namespace Resolved

theorem aggregateFree_dimensions (h : Resolved r settings p)
    (hfree : ∀ d ∈ r.dimensions, d.field.definition.AggregateFree) :
    ∀ d ∈ p.selection.dimensions, d.expr.AggregateFree := by
  intro d hd
  obtain ⟨dimension, hdimension, e, hlower, rfl⟩ := h.selection.exists_dimension hd
  exact (hfree dimension hdimension).of_lowerWith hlower

theorem aggregateFree_grouped (h : Resolved r settings p)
    (hfree : ∀ d ∈ r.dimensions, d.field.definition.AggregateFree) :
    SplitColumns.GroupsAggregateFree p.grouping.columns := by
  obtain ⟨columns, hcols, hgroup⟩ := h.grouping
  obtain ⟨marked, hmarked, hperm⟩ := Grouping.perm_of_ofRollup hgroup
  intro c hc hgrouped
  obtain ⟨d, hd, hdc⟩ := exists_left_of_forall₂ hmarked (hperm.mem_iff.mp hc)
  have hsplits := SplitColumns.aggregateFree_of_ofSplits hcols
    fun d hd _ => h.aggregateFree_dimensions hfree d hd
  rw [hdc] at hgrouped ⊢
  exact hsplits d hd hgrouped

theorem keysAggregateFree_baseQuery (h : Resolved r settings p)
    (hfree : ∀ d ∈ r.dimensions, d.field.definition.AggregateFree) (collapsed : List String) :
    (p.baseQuery collapsed).KeysAggregateFree := by
  intro e he
  have hmem : e ∈ p.grouping.grouped.map (Grouping.aliasRef none) := by
    rcases List.mem_append.mp he with he | he
    · exact (Grouping.exprs_rollupEntries p.grouping).mem_iff.mp he
    · obtain ⟨o, ho, rfl⟩ := List.mem_map.mp he
      obtain ⟨d, hd, rfl⟩ := List.mem_map.mp ho
      exact List.mem_map_of_mem hd
  obtain ⟨d, hd, rfl⟩ := List.mem_map.mp hmem
  obtain ⟨hd, hgrouped⟩ := List.mem_filter.mp hd
  exact ⟨d.aliasName, _, rfl, h.projected_baseQuery hd collapsed,
    aggregateFree_dimensionItem (h.aggregateFree_grouped hfree d hd hgrouped) collapsed⟩

theorem keysAggregateFree_comparisonQuery (h : Resolved r settings p)
    (hfree : ∀ d ∈ r.dimensions, d.field.definition.AggregateFree) (collapsed : List String)
    (c : Comparison) : (p.comparisonQuery collapsed c).KeysAggregateFree := by
  intro e he
  have hmem : e ∈ p.declared.grouped.map (Grouping.aliasRef none) := by
    rcases List.mem_append.mp he with he | he
    · rwa [← Grouping.exprs_plainEntries]
    · cases he
  obtain ⟨d, hd, rfl⟩ := List.mem_map.mp hmem
  have hd := (mem_declared d).mp (List.mem_filter.mp hd).1
  exact ⟨d.aliasName, _, rfl, h.projected_comparisonQuery hd collapsed c,
    aggregateFree_dimensionItem (h.aggregateFree_dimensions hfree d hd) collapsed⟩

end Resolved

end Plan

/-! ## Statements -/

/-- If the declared dimensions of a compiled request are free of aggregates, then so is what every query over
tables groups and sorts by, whatever splits the request has. -/
theorem keys_aggregateFree {r : Request} {settings : Settings} {c : Compilation}
    (h : Compilation.ofRequest r settings = .ok c)
    (hfree : ∀ d ∈ r.dimensions, d.field.definition.AggregateFree) :
    ∀ s ∈ c.statements, ∀ q ∈ Sql.Query.levels s.query, Sql.Query.Flat q → Sql.Query.KeysAggregateFree q := by
  obtain ⟨p, hp, rfl⟩ := Compilation.ofRequest_eq_ok.mp h
  intro s hs q hq hflat
  rw [Compilation.query_of_mem hs] at hq
  rcases hp.mem_levels_query hq with rfl | ⟨k, -, rfl⟩ | rfl
  · exact hp.keysAggregateFree_baseQuery hfree _
  · exact hp.keysAggregateFree_comparisonQuery hfree _ k
  · -- The query around the comparisons selects from the base query.
    obtain ⟨name, a, hsource⟩ := hflat _ List.mem_cons_self
    cases hsource

/-- Clicks by country and time, compared with those of the week before, with splits in place of the country
and beside the time, and one by the number of clicks. -/
def Request.splitClicks : Request where
  table := "clicks"
  joins := []
  dimensions := [.plain .country, .plain .time]
  metrics := [⟨.clicks⟩]
  filters := [
    .resultSet (.ofFilter ⟨.country, .eq, .ofValue (.text "DE")⟩),
    .resultSet ⟨⟨.time, .lt, .ofValue (.text "2024-01-01")⟩, none, none, false, false⟩,
    .resultSet (.ofFilter ⟨.clicks, .gt, .ofValue (.scalar (.number (.int 10)))⟩)]
  references := [⟨.weekOverWeek, .delta, "at"⟩]
  rollup := [.single "country"]
  limit := none
  offset := none

theorem keys_aggregateFree_splitClicks :
    (∀ d ∈ Request.splitClicks.dimensions, d.field.definition.AggregateFree) ∧
      ∃ c, Compilation.ofRequest .splitClicks .default = .ok c ∧ c.statements.length = 1 ∧
        c.dimensionKeys = ["set(at<'2024-01-01')", "at", "set(SUM(clicks)>10)", "country"] ∧
        ∀ s ∈ c.statements, ∀ q ∈ Sql.Query.levels s.query,
          Sql.Query.Flat q → Sql.Query.KeysAggregateFree q := by
  have hfree : ∀ d ∈ Request.splitClicks.dimensions, d.field.definition.AggregateFree := by
    have hnone : ∀ d ∈ Request.splitClicks.dimensions, d.field.definition.isAggregate = false := by decide
    exact fun d hd => Expr.isAggregate_eq_false_iff.mp (hnone d hd)
  have hkeys : (Compilation.ofRequest .splitClicks .default).toOption.map
      (fun c => (c.statements.length, c.dimensionKeys)) =
      some (1, ["set(at<'2024-01-01')", "at", "set(SUM(clicks)>10)", "country"]) := by
    decide +kernel
  obtain ⟨c, hc, hkeys⟩ := exists_of_map_toOption hkeys
  obtain ⟨hlength, hdimensions⟩ := Prod.mk.inj hkeys
  exact ⟨hfree, c, hc, hlength, hdimensions, keys_aggregateFree hc hfree⟩

end CubeSql
