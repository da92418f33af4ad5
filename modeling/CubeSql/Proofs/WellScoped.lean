import CubeSql.Proofs.Projection

/-!
# Statements are well scoped

Every name that a statement mentions refers to something in scope. A query over tables groups and sorts by
its own columns and qualifies columns by the aliases of its own tables; the query around a comparison reads
only columns that the base query or a comparison query selects.
-/

namespace CubeSql

namespace Sql.Query

/-- A query over the tables of a request whose names are all known in it. -/
structure FlatScoped (r : Request) (q : Query) : Prop where
  /-- It reads tables only. -/
  tables : ∀ s ∈ q.sources, ∃ name aliasName, s = .table name aliasName
  /-- It groups by its own columns. -/
  groups : ∀ e ∈ q.groupExprs, ∃ a ∈ q.aliases, e = .column none a
  /-- It sorts by its own columns. -/
  order : ∀ e ∈ q.orderExprs, ∃ a ∈ q.aliases, e = .column none a
  /-- It qualifies columns by the aliases of its tables. -/
  qualified : ∀ e ∈ q.sourceExprs, ∀ c ∈ e.occurrences, ∀ t, c.1 = some t →
    some t ∈ q.sources.map Source.aliasName?
  /-- Over one table it qualifies no column. -/
  unqualified : r.joins = [] → ∀ e ∈ q.sourceExprs, ∀ c ∈ e.occurrences, c.1 = none

/-- There are queries under the alias among the sources, and all of them select the column. -/
def Provides (q : Query) (t column : String) : Prop :=
  (∃ s ∈ q.sources, s.aliasName? = some t) ∧
    ∀ s ∈ q.sources, s.aliasName? = some t → ∃ sub : Query, s = .derived sub t ∧ column ∈ sub.aliases

/-- A base query joined with the comparison query of every reference of a request, where every column that
is read is one that the query of its qualifier selects. -/
structure ComparedScoped (r : Request) (q : Query) : Prop where
  /-- The base query. -/
  base : ∃ base : Query, q.source = .derived base Plan.baseAlias ∧ base.FlatScoped r
  /-- The comparison queries. -/
  comparisons : List.Forall₂ (fun x j => ∃ sub : Query, j.source = .derived sub x.name ∧ sub.FlatScoped r)
    r.references q.joins
  /-- The columns that are read. -/
  columns : ∀ e ∈ q.sourceExprs ++ q.groupExprs ++ q.orderExprs, ∀ c ∈ e.occurrences,
    ∃ t, c.1 = some t ∧ q.Provides t c.2

end Sql.Query

namespace Plan.Resolved

variable {r : Request} {settings : Settings} {p : Plan}

/-! ## Queries over tables -/

theorem inScope_items (h : Resolved r settings p) {collapsed : List String}
    {columns : List DimensionColumn} (hcols : ∀ c ∈ columns, c.expr.InScope p.selection.scope) :
    ∀ i ∈ p.items collapsed columns, i.expr.InScope p.selection.scope := by
  intro i hi
  rcases List.mem_append.mp hi with hi | hi
  · obtain ⟨d, hd, rfl⟩ := List.mem_map.mp hi
    unfold dimensionItem
    split_ifs
    · exact Sql.Expr.inScope_literal _
    · exact hcols d hd
  · obtain ⟨m, hm, rfl⟩ := List.mem_map.mp hi
    exact h.selection.inScope_metric m hm

/-- A query over the tables of a plan is well scoped if its expressions are and if it groups and sorts by
its own columns. -/
theorem flatScoped (h : Resolved r settings p) {q : Sql.Query}
    (hsource : q.source = p.selection.scope.baseSource) (hjoins : q.joins = p.selection.joins)
    (hitems : ∀ i ∈ q.items, i.expr.InScope p.selection.scope)
    (hrows : ∀ e ∈ q.restrictions, e.InScope p.selection.scope)
    (hhaving : ∀ e ∈ q.having, e.InScope p.selection.scope)
    (hgroups : ∀ e ∈ q.groupExprs, ∃ a ∈ q.aliases, e = .column none a)
    (horder : ∀ e ∈ q.orderExprs, ∃ a ∈ q.aliases, e = .column none a) : q.FlatScoped r := by
  have hexprs : ∀ e ∈ q.sourceExprs, e.InScope p.selection.scope := by
    intro e he
    simp only [Sql.Select.sourceExprs, List.mem_append, List.mem_map, List.mem_flatMap] at he
    rcases he with ((⟨i, hi, rfl⟩ | ⟨j, hj, he⟩) | he) | he
    · exact hitems i hi
    · rw [hjoins] at hj
      exact h.selection.inScope_on j hj e he
    · exact hrows e he
    · exact hhaving e he
  have haliases : q.sources.map Sql.Source.aliasName? = p.selection.scope.qualifiers := by
    rw [← h.selection.aliases_eq_qualifiers, Sql.Select.sources, hsource, hjoins]
  refine ⟨?_, hgroups, horder, ?_, ?_⟩
  · rw [Sql.Select.sources, hsource, hjoins]
    exact h.selection.sources_are_tables
  · intro e he c hc t ht
    rw [haliases, ← ht]
    exact hexprs e he c hc
  · intro hnil e he c hc
    refine Scope.eq_none_of_mem_qualifiers ?_ (hexprs e he c hc)
    rw [h.selection.scope, hnil]
    rfl

theorem flatScoped_baseQuery (h : Resolved r settings p) (collapsed : List String) :
    (p.baseQuery collapsed).FlatScoped r := by
  have hown : ∀ d ∈ p.grouping.grouped, d.aliasName ∈ (p.baseQuery collapsed).aliases := by
    intro d hd
    exact mem_aliases_items.mpr (.inl ⟨d, (List.mem_filter.mp hd).1, rfl⟩)
  refine h.flatScoped rfl rfl (h.inScope_items h.inScope_column) ?_ h.selection.inScope_group ?_ ?_
  · intro e he
    obtain ⟨row, hrow, rfl⟩ := List.mem_map.mp he
    exact row.condition.inScope_on (h.selection.inScope_row row hrow)
  · intro e he
    obtain ⟨d, hd, rfl⟩ := List.mem_map.mp ((Grouping.exprs_rollupEntries p.grouping).mem_iff.mp he)
    exact ⟨_, hown d hd, rfl⟩
  · intro e he
    obtain ⟨o, ho, rfl⟩ := List.mem_map.mp he
    obtain ⟨d, hd, rfl⟩ := List.mem_map.mp ho
    exact ⟨_, hown d hd, rfl⟩

theorem flatScoped_comparisonQuery (h : Resolved r settings p) (collapsed : List String)
    (c : Comparison) : (p.comparisonQuery collapsed c).FlatScoped r := by
  have hcols : ∀ d ∈ p.declared.columns, d.expr.InScope p.selection.scope := fun d hd =>
    h.selection.inScope_dimension d ((mem_declared d).mp hd)
  refine h.flatScoped rfl rfl (h.inScope_items hcols) ?_ (fun e he => absurd he List.not_mem_nil) ?_
    (fun e he => absurd he List.not_mem_nil)
  · intro e he
    obtain ⟨row, hrow, rfl⟩ := List.mem_map.mp he
    have hsubject := h.selection.inScope_row row hrow
    unfold Comparison.predicate
    split_ifs
    · exact row.condition.inScope_on (hsubject.minus_interval _ _)
    · exact row.condition.inScope_on hsubject
  · intro e he
    have hentries : (p.comparisonQuery collapsed c).groupExprs =
        p.declared.grouped.map (Grouping.aliasRef none) := Grouping.exprs_plainEntries _
    rw [hentries] at he
    obtain ⟨d, hd, rfl⟩ := List.mem_map.mp he
    exact ⟨_, mem_aliases_items.mpr (.inl ⟨d, (List.mem_filter.mp hd).1, rfl⟩), rfl⟩

/-! ## The query around the comparisons -/

theorem provides_base {collapsed : List String} {a : String}
    (ha : a ∈ (p.baseQuery collapsed).aliases) : (p.comparedQuery collapsed).Provides baseAlias a := by
  refine ⟨⟨_, List.mem_cons_self, rfl⟩, fun s hs hname => ?_⟩
  rcases List.mem_cons.mp hs with rfl | hs
  · exact ⟨_, rfl, ha⟩
  · simp only [comparedQuery, List.map_map, List.mem_map] at hs
    obtain ⟨c, -, rfl⟩ := hs
    exact absurd (Option.some.inj hname) (c.reference.name_ne_baseAlias)

/-- All comparison queries select the same columns, so any of a name will do. -/
theorem provides_comparison {collapsed : List String} {c : Comparison} (hc : c ∈ p.comparisons)
    {a : String} (ha : a ∈ (p.comparisonQuery collapsed c).aliases) :
    (p.comparedQuery collapsed).Provides c.name a := by
  refine ⟨⟨.derived (p.comparisonQuery collapsed c) c.name, ?_, rfl⟩, fun s hs hname => ?_⟩
  · refine List.mem_cons_of_mem _ ?_
    simp only [comparedQuery, List.map_map, List.mem_map]
    exact ⟨c, hc, rfl⟩
  · rcases List.mem_cons.mp hs with rfl | hs
    · exact absurd (Option.some.inj hname).symm (c.reference.name_ne_baseAlias)
    · simp only [comparedQuery, List.map_map, List.mem_map] at hs
      obtain ⟨c', -, rfl⟩ := hs
      have hname' : c'.name = c.name := Option.some.inj hname
      exact ⟨p.comparisonQuery collapsed c', by rw [← hname']; rfl, ha⟩

theorem alias_mem_baseQuery (h : Resolved r settings p) {collapsed : List String} {d : DimensionColumn}
    (hd : d ∈ p.selection.dimensions) : d.aliasName ∈ (p.baseQuery collapsed).aliases := by
  obtain ⟨c, hc, hdc⟩ := h.exists_carrier hd
  refine mem_aliases_items.mpr (.inl ⟨c, hc, ?_⟩)
  unfold DimensionColumn.aliasName
  rw [hdc.key]

theorem alias_mem_comparisonQuery {collapsed : List String} {c : Comparison} {d : DimensionColumn}
    (hd : d ∈ p.selection.dimensions) : d.aliasName ∈ (p.comparisonQuery collapsed c).aliases :=
  mem_aliases_items.mpr (.inl ⟨d, (mem_declared d).mpr hd, rfl⟩)

theorem occurrences_transform {modifier : ReferenceModifier} {guarded : Bool} {b c : Sql.Expr}
    {x : Sql.ColumnRef} (hx : x ∈ (Comparison.transform modifier guarded b c).occurrences) :
    x ∈ b.occurrences ∨ x ∈ c.occurrences := by
  cases modifier with
  | plain => exact .inr hx
  | delta => exact List.mem_append.mp hx
  | deltaPercent =>
    rcases List.mem_append.mp hx with hx | hx
    · exact List.mem_append.mp hx
    · cases guarded with
      | false => exact .inr hx
      | true =>
        simp only [Sql.Expr.occurrences, Sql.Expr.occurrencesAll, List.append_nil, if_true] at hx
        exact .inr hx

/-- The query around the comparisons reads columns of the base query and of the comparison queries. -/
theorem reads_comparedQuery (h : Resolved r settings p) (collapsed : List String) :
    ∀ e ∈ (p.comparedQuery collapsed).sourceExprs ++ (p.comparedQuery collapsed).groupExprs ++
      (p.comparedQuery collapsed).orderExprs, ∀ x ∈ e.occurrences,
      ∃ t, x.1 = some t ∧ (p.comparedQuery collapsed).Provides t x.2 := by
  have hbase : ∀ a ∈ (p.baseQuery collapsed).aliases,
      ∀ x ∈ (Sql.Expr.column (some baseAlias) a).occurrences,
        ∃ t, x.1 = some t ∧ (p.comparedQuery collapsed).Provides t x.2 := by
    intro a ha x hx
    cases List.mem_singleton.mp hx
    exact ⟨_, rfl, provides_base ha⟩
  have hcompared : ∀ c ∈ p.comparisons, ∀ a ∈ (p.comparisonQuery collapsed c).aliases,
      ∀ x ∈ (Sql.Expr.column (some c.name) a).occurrences,
        ∃ t, x.1 = some t ∧ (p.comparedQuery collapsed).Provides t x.2 := by
    intro c hc a ha x hx
    cases List.mem_singleton.mp hx
    exact ⟨_, rfl, provides_comparison hc ha⟩
  intro e he
  simp only [Sql.Select.sourceExprs, Sql.Select.groupExprs, Sql.Select.orderExprs, comparedQuery,
    List.flatMap_nil, List.append_nil, List.mem_append, List.mem_map, List.mem_flatMap] at he
  rcases he with (⟨i, hi | ⟨c, hc, hi⟩, rfl⟩ | ⟨j, ⟨c, hc, rfl⟩, he⟩) | ⟨o, ho, rfl⟩
  · obtain ⟨i', hi', hii'⟩ := List.mem_filterMap.mp hi
    obtain ⟨a, ha, rfl⟩ := Option.map_eq_some_iff.mp hii'
    exact hbase a (List.mem_filterMap.mpr ⟨i', hi', ha⟩)
  · have hanchor := h.anchor_mem hc
    rcases List.mem_cons.mp hi with rfl | hi
    · exact hcompared c hc _ (alias_mem_comparisonQuery hanchor)
    · obtain ⟨m, hm, rfl⟩ := List.mem_map.mp hi
      intro x hx
      rcases occurrences_transform hx with hx | hx
      · exact hbase _ (mem_aliases_items.mpr (.inr ⟨m, hm, rfl⟩)) x hx
      · exact hcompared c hc _ (mem_aliases_items.mpr (.inr ⟨m, hm, rfl⟩)) x hx
  · have hanchor := h.anchor_mem hc
    rcases List.mem_cons.mp he with rfl | he
    · intro x hx
      rcases List.mem_append.mp hx with hx | hx
      · exact hbase _ (h.alias_mem_baseQuery hanchor) x hx
      · refine hcompared c hc _ (alias_mem_comparisonQuery hanchor) x ?_
        split_ifs at hx
        · exact hx
        · simpa [Comparison.shift, Sql.Expr.minus, Comparison.interval, Sql.Expr.occurrences] using hx
    · obtain ⟨d, hd, rfl⟩ := List.mem_map.mp he
      have hd' := (mem_declared d).mp (List.mem_filter.mp hd).1
      intro x hx
      rcases List.mem_append.mp hx with hx | hx
      · exact hbase _ (h.alias_mem_baseQuery hd') x hx
      · exact hcompared c hc _ (alias_mem_comparisonQuery hd') x hx
  · obtain ⟨d, hd, rfl⟩ := List.mem_map.mp ho
    exact hbase _ (mem_aliases_items.mpr (.inl ⟨d, (List.mem_filter.mp hd).1, rfl⟩))

theorem comparedScoped (h : Resolved r settings p) (collapsed : List String) :
    (p.comparedQuery collapsed).ComparedScoped r where
  base := ⟨_, rfl, h.flatScoped_baseQuery collapsed⟩
  comparisons := by
    refine h.forall₂_joins fun x c hbind => ?_
    obtain ⟨rfl, -⟩ := Comparison.bind_eq_ok.mp hbind
    exact ⟨_, rfl, h.flatScoped_comparisonQuery collapsed c⟩
  columns := h.reads_comparedQuery collapsed

end Plan.Resolved

/-! ## Statements -/

/-- Every statement of a compiled request is well scoped: without references it is a query over the tables,
and otherwise a base query joined with a comparison query for each of them. -/
theorem wellScoped_statements {r : Request} {settings : Settings} {c : Compilation}
    (h : Compilation.ofRequest r settings = .ok c) :
    ∀ s ∈ c.statements, (r.references = [] → s.query.FlatScoped r) ∧
      (r.references ≠ [] → s.query.ComparedScoped r) := by
  obtain ⟨p, hp, rfl⟩ := Compilation.ofRequest_eq_ok.mp h
  intro s hs
  rw [Compilation.query_of_mem hs]
  constructor
  · intro hrefs
    rw [hp.query_eq_baseQuery hrefs]
    exact hp.flatScoped_baseQuery _
  · intro hrefs
    rw [hp.query_eq_comparedQuery hrefs]
    exact hp.comparedScoped _

theorem wellScoped_statements_clicksByDay :
    ∃ c, Compilation.ofRequest .clicksByDay .default = .ok c ∧
      ∀ s ∈ c.statements, s.query.ComparedScoped .clicksByDay := by
  obtain ⟨c, hc⟩ := compiles_clicksByDay
  exact ⟨c, hc, fun s hs => (wellScoped_statements hc s hs).2 (by decide)⟩

end CubeSql
