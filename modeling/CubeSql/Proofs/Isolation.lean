import CubeSql.Proofs.Plan

/-!
# Comparison queries are isolated

The query of a comparison depends on the tables, the dimensions, the metrics and the conditions on rows of a
request, and on its reference; on nothing else of the request. It groups plainly and returns all of its rows.
-/

namespace CubeSql

/-! ## What is compared -/

/-- The filters on rows, in order. -/
def Request.rowFilters (r : Request) : List Filter := r.filters.filterMap RequestFilter.row?

/-- Requests for the same facts: they may differ in splits, conditions on groups, references, subtotals and in
how many rows they ask for. -/
structure Request.SameFacts (r r' : Request) : Prop where
  table : r.table = r'.table
  joins : r.joins = r'.joins
  dimensions : r.dimensions = r'.dimensions
  metrics : r.metrics = r'.metrics
  rowFilters : r.rowFilters = r'.rowFilters

/-- Selections of the same facts. -/
structure Selection.SameFacts (s s' : Selection) : Prop where
  scope : s.scope = s'.scope
  joins : s.joins = s'.joins
  dimensions : s.dimensions = s'.dimensions
  metrics : s.metrics = s'.metrics
  rows : s.restrictions.rows = s'.restrictions.rows

variable {r r' : Request} {settings : Settings}

/-- Requests for the same facts select the same facts. -/
theorem Selection.Resolved.sameFacts {s s' : Selection} (h : Resolved r s) (h' : Resolved r' s')
    (hfacts : r.SameFacts r') : s.SameFacts s' := by
  have hscope : s.scope = s'.scope := by
    rw [h.scope, h'.scope, hfacts.table, hfacts.joins]
  have hjoins := h.joins
  have hdimensions := h.dimensions
  have hmetrics := h.metrics
  have hrows := h.restrictions.rows
  rw [hscope] at hjoins hdimensions hmetrics hrows
  rw [hfacts.joins] at hjoins
  rw [hfacts.dimensions] at hdimensions
  rw [hfacts.metrics] at hmetrics
  rw [← Request.rowFilters, hfacts.rowFilters] at hrows
  exact ⟨hscope, eq_of_forall₂_ok hjoins h'.joins, eq_of_forall₂_ok hdimensions h'.dimensions,
    eq_of_forall₂_ok hmetrics h'.metrics, eq_of_forall₂_ok hrows h'.restrictions.rows⟩

namespace Sql

/-- What is joined to a query under an alias. -/
def Query.joinedAs (q : Query) (aliasName : String) : List Source :=
  (q.joins.map JoinOf.source).filter fun s => s.aliasName? == some aliasName

/-- The query groups by single expressions only, and returns every group, in no particular order. -/
structure Query.Plain (q : Query) : Prop where
  groups : ∀ g ∈ q.groups, ∃ e, g = .expr e
  having : q.having = []
  order : q.order = []
  limit : q.limit = none
  offset : q.offset = none

end Sql

namespace Plan

variable {p p' : Plan}

/-- Over the same facts a comparison has the same query. -/
theorem comparisonQuery_eq (hfacts : p.selection.SameFacts p'.selection)
    (hsettings : p.settings = p'.settings) (collapsed : List String) (c : Comparison) :
    p.comparisonQuery collapsed c = p'.comparisonQuery collapsed c := by
  have hdeclared : p.declared = p'.declared := congrArg Grouping.declared hfacts.dimensions
  have hitem : p.dimensionItem collapsed = p'.dimensionItem collapsed := by
    funext d
    simp only [dimensionItem, hsettings]
  simp only [comparisonQuery, items, hdeclared, hitem, hfacts.scope, hfacts.joins, hfacts.metrics,
    hfacts.rows]

theorem plain_comparisonQuery (p : Plan) (collapsed : List String) (c : Comparison) :
    (p.comparisonQuery collapsed c).Plain where
  groups g hg := by
    obtain ⟨d, -, rfl⟩ := List.mem_map.mp hg
    exact ⟨_, rfl⟩
  having := rfl
  order := rfl
  limit := rfl
  offset := rfl

namespace Resolved

/-- Under the name of a reference, the query of its comparison alone is joined. -/
theorem joinedAs_comparedQuery (h : Resolved r settings p) (collapsed : List String) {x : Reference}
    {c : Comparison} (hc : c ∈ p.comparisons) (hbind : Comparison.bind p.selection.dimensions x = .ok c) :
    Sql.Query.joinedAs (p.comparedQuery collapsed) x.name =
      [.derived (p.comparisonQuery collapsed c) x.name] := by
  obtain ⟨rfl, -⟩ := Comparison.bind_eq_ok.mp hbind
  have hnodup : (((p.comparedQuery collapsed).joins.map Sql.JoinOf.source).filterMap
      Sql.Source.aliasName?).Nodup := by
    rw [filterMap_eq_of_map_eq (h.aliases_joins collapsed)]
    exact h.names_nodup
  exact filter_key_eq hnodup (List.mem_map_of_mem (List.mem_map_of_mem hc)) rfl

/-- A reference that two requests for the same facts share is compared by the same query. -/
theorem exists_comparison (h : Resolved r settings p) (h' : Resolved r' settings p')
    (hfacts : r.SameFacts r') {x : Reference} (hx : x ∈ r.references) (hx' : x ∈ r'.references)
    (collapsed : List String) :
    ∃ sub : Sql.Query, Sql.Query.joinedAs (p.query collapsed) x.name = [.derived sub x.name] ∧
      Sql.Query.joinedAs (p'.query collapsed) x.name = [.derived sub x.name] ∧ sub.Plain := by
  have hselections := h.selection.sameFacts h'.selection hfacts
  obtain ⟨c, hc, hbind⟩ := exists_right_of_forall₂ h.comparisons hx
  obtain ⟨c', hc', hbind'⟩ := exists_right_of_forall₂ h'.comparisons hx'
  -- A reference is bound among the declared dimensions, and both requests declare the same.
  have hsame : c = c' := by
    rw [hselections.dimensions] at hbind
    exact Except.ok.inj (hbind.symm.trans hbind')
  subst hsame
  refine ⟨p.comparisonQuery collapsed c, ?_, ?_, p.plain_comparisonQuery collapsed c⟩
  · rw [h.query_eq_comparedQuery (List.ne_nil_of_mem hx)]
    exact h.joinedAs_comparedQuery collapsed hc hbind
  · rw [h'.query_eq_comparedQuery (List.ne_nil_of_mem hx'),
      comparisonQuery_eq hselections (h.settings.trans h'.settings.symm)]
    exact h'.joinedAs_comparedQuery collapsed hc' hbind'

end Resolved

end Plan

/-! ## Statements -/

/-- Two requests for the same facts that share a reference compare it by the same plain query in their base
statements. -/
theorem comparison_isolated {c c' : Compilation} (h : Compilation.ofRequest r settings = .ok c)
    (h' : Compilation.ofRequest r' settings = .ok c') (hfacts : r.SameFacts r') {x : Reference}
    (hx : x ∈ r.references) (hx' : x ∈ r'.references) :
    ∃ s s', ∃ sub : Sql.Query, c.base? = some s ∧ c'.base? = some s' ∧
      Sql.Query.joinedAs s.query x.name = [.derived sub x.name] ∧
      Sql.Query.joinedAs s'.query x.name = [.derived sub x.name] ∧ sub.Plain := by
  obtain ⟨p, hp, rfl⟩ := Compilation.ofRequest_eq_ok.mp h
  obtain ⟨p', hp', rfl⟩ := Compilation.ofRequest_eq_ok.mp h'
  obtain ⟨sub, hjoined, hjoined', hplain⟩ := hp.exists_comparison hp' hfacts hx hx' []
  exact ⟨⟨.base, p.query []⟩, ⟨.base, p'.query []⟩, sub, rfl, rfl, hjoined, hjoined', hplain⟩

/-- The clicks of `Request.clicksByDay` from the sixth row on, without splits, subtotals and conditions on
groups, compared with those of the year before and of the week before. -/
def Request.plainClicksByDay : Request :=
  { Request.clicksByDay with
    filters := Request.clicksByDay.filters.take 1
    references := [⟨.yearOverYear, .plain, "day"⟩, ⟨.weekOverWeek, .delta, "day"⟩]
    rollup := []
    limit := none
    offset := some 5 }

theorem comparison_isolated_clicksByDay :
    ∃ c c' s s', ∃ sub : Sql.Query, Compilation.ofRequest .clicksByDay .default = .ok c ∧
      Compilation.ofRequest .plainClicksByDay .default = .ok c' ∧
      c.base? = some s ∧ c'.base? = some s' ∧
      Sql.Query.joinedAs s.query "wow_d" = [.derived sub "wow_d"] ∧
      Sql.Query.joinedAs s'.query "wow_d" = [.derived sub "wow_d"] ∧ sub.Plain := by
  have hfacts : Request.clicksByDay.SameFacts .plainClicksByDay := ⟨rfl, rfl, rfl, rfl, rfl⟩
  have hx : (⟨.weekOverWeek, .delta, "day"⟩ : Reference) ∈ Request.clicksByDay.references := by decide
  have hx' : (⟨.weekOverWeek, .delta, "day"⟩ : Reference) ∈ Request.plainClicksByDay.references := by
    decide
  obtain ⟨c, hc⟩ := compiles_clicksByDay
  obtain ⟨c', hc'⟩ : ∃ c', Compilation.ofRequest .plainClicksByDay .default = .ok c' :=
    exists_of_isOk (by decide +kernel)
  obtain ⟨s, s', sub, hsub⟩ := comparison_isolated hc hc' hfacts hx hx'
  exact ⟨c, c', s, s', sub, hc, hc', hsub⟩

end CubeSql
