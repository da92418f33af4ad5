import CubeSql.Proofs.Schema

/-!
# Names are told apart

A statement may hold queries inside queries. Each of them gives every column that it selects an alias, and
wherever it joins, every table or query that it reads; within one query no two of these are the same.
-/

namespace CubeSql

/-! ## The queries of a statement -/

namespace Sql

mutual

/-- A query and the queries that it reads, at every depth. -/
def Query.levels : Select Source → List (Select Source)
  | ⟨distinct, items, source, joins, restrictions, groups, having, order, limit, offset⟩ =>
    ⟨distinct, items, source, joins, restrictions, groups, having, order, limit, offset⟩ ::
      (Source.levels source ++ joinsLevels joins)

/-- The queries that make up a source. -/
def Source.levels : Source → List (Select Source)
  | .table _ _ => []
  | .derived query _ => Query.levels query

/-- The queries that make up the sources of joins. -/
def joinsLevels : List (JoinOf Source) → List (Select Source)
  | [] => []
  | ⟨_, source, _⟩ :: joins => Source.levels source ++ joinsLevels joins

end

theorem joinsLevels_eq (joins : List QueryJoin) :
    joinsLevels joins = (joins.map JoinOf.source).flatMap Source.levels := by
  induction joins with
  | nil => rfl
  | cons j joins ih => rw [joinsLevels, ih, List.map_cons, List.flatMap_cons]

theorem Query.levels_eq (q : Query) : Query.levels q = q :: q.sources.flatMap Source.levels := by
  obtain ⟨distinct, items, source, joins, restrictions, groups, having, order, limit, offset⟩ := q
  rw [Query.levels, joinsLevels_eq, Select.sources, List.flatMap_cons]

/-- A query over tables holds no other query. -/
theorem Query.levels_of_tables {q : Query} (h : ∀ s ∈ q.sources, ∃ name a, s = .table name a) :
    Query.levels q = [q] := by
  have hnone : ∀ s ∈ q.sources, Source.levels s = [] := by
    intro s hs
    obtain ⟨name, a, rfl⟩ := h s hs
    rw [Source.levels]
  rw [Query.levels_eq, List.flatMap_eq_nil_iff.mpr hnone]

end Sql

/-! ## Names -/

theorem Scope.aliasAt_injective : Function.Injective aliasAt := by
  intro a b h
  have hrepr : a.repr = b.repr := (String.append_right_inj "t").mp h
  have hdigits := congrArg (fun digits => Nat.ofDigitChars 10 digits.toList 0) hrepr
  simpa only [Nat.toList_repr, Nat.ofDigitChars_ten_toDigits] using hdigits

namespace Request

/-- The aliases of the tables of a request that joins tables: `t0`, `t1` and so on. -/
def tableAliases (r : Request) : List String := (List.range (r.joins.length + 1)).map Scope.aliasAt

/-- The aliases of the base query and of the comparison queries. -/
def comparedAliases (r : Request) : List String := Plan.baseAlias :: r.references.map Reference.name

theorem tableAliases_nodup (r : Request) : r.tableAliases.Nodup :=
  List.nodup_range.map Scope.aliasAt_injective

/-- A query of a request in which all names are given and none is given twice. -/
structure NamedApart (r : Request) (q : Sql.Query) : Prop where
  /-- Every column has an alias of its own. -/
  columns : ∃ names : List String, q.items.map Sql.SelectItem.aliasName = names.map some ∧ names.Nodup
  /-- Where anything is joined, every table or query has an alias of its own. -/
  sources : q.joins ≠ [] → ∃ names ∈ [r.tableAliases, r.comparedAliases],
    q.sources.map Sql.Source.aliasName? = names.map some ∧ names.Nodup

end Request

variable {r : Request} {settings : Settings}

/-- A request that joins tables gives all of its tables an alias. -/
theorem Selection.Resolved.aliases_of_joins {s : Selection} (h : Resolved r s) (hjoins : s.joins ≠ []) :
    (s.scope.baseSource :: s.joins.map Sql.JoinOf.source).map Sql.Source.aliasName? =
      r.tableAliases.map some := by
  have hjoined : s.scope.joined ≠ [] := by
    intro hnil
    have hlength := h.length_joins
    rw [hnil] at hlength
    exact hjoins (List.length_eq_zero_iff.mp hlength)
  have hcount : s.scope.joined.length = r.joins.length := by rw [h.scope, List.length_map]
  have halias : ∀ position, s.scope.qualifierAt position = some (Scope.aliasAt position) := by
    intro position
    exact if_pos (by simpa [Scope.isQualified] using hjoined)
  rw [h.aliases_eq_qualifiers, Scope.qualifiers, hcount, Request.tableAliases, List.map_map]
  exact List.map_congr_left fun position _ => halias position

namespace Plan

variable {p : Plan}

namespace Resolved

/-! ## Queries over tables -/

theorem namedApart_baseQuery (h : Resolved r settings p) (collapsed : List String) :
    r.NamedApart (p.baseQuery collapsed) where
  columns := ⟨_, map_aliasName_items collapsed p.grouping.columns, h.base_aliases_nodup⟩
  sources hjoins :=
    ⟨_, List.mem_cons_self, h.selection.aliases_of_joins hjoins, r.tableAliases_nodup⟩

theorem namedApart_comparisonQuery (h : Resolved r settings p) (collapsed : List String)
    (c : Comparison) : r.NamedApart (p.comparisonQuery collapsed c) where
  columns := by
    refine ⟨_, map_aliasName_items collapsed p.declared.columns, ?_⟩
    rw [← aliases_items collapsed]
    exact h.aliases_comparisonQuery_nodup collapsed c
  sources hjoins :=
    ⟨_, List.mem_cons_self, h.selection.aliases_of_joins hjoins, r.tableAliases_nodup⟩

/-! ## The query around the comparisons -/

/-- No reference has the alias of the base query. -/
theorem comparedAliases_nodup (h : Resolved r settings p) : r.comparedAliases.Nodup := by
  refine List.nodup_cons.mpr ⟨fun hmem => ?_, h.names_nodup⟩
  obtain ⟨x, -, hname⟩ := List.mem_map.mp hmem
  exact x.name_ne_baseAlias hname

theorem aliases_sources_comparedQuery (h : Resolved r settings p) (collapsed : List String) :
    (p.comparedQuery collapsed).sources.map Sql.Source.aliasName? = r.comparedAliases.map some := by
  rw [Sql.Select.sources, List.map_cons, h.aliases_joins]
  rfl

theorem namedApart_comparedQuery (h : Resolved r settings p) (collapsed : List String) :
    r.NamedApart (p.comparedQuery collapsed) where
  columns := ⟨_, p.map_aliasName_comparedQuery collapsed, h.aliases_nodup⟩
  sources _ := ⟨_, List.mem_cons_of_mem _ List.mem_cons_self,
    h.aliases_sources_comparedQuery collapsed, h.comparedAliases_nodup⟩

theorem levels_baseQuery (h : Resolved r settings p) (collapsed : List String) :
    Sql.Query.levels (p.baseQuery collapsed) = [p.baseQuery collapsed] :=
  Sql.Query.levels_of_tables h.selection.sources_are_tables

/-- The query around the comparisons holds the base query and the comparison queries, and these hold no
others. -/
theorem levels_comparedQuery (h : Resolved r settings p) (collapsed : List String) :
    Sql.Query.levels (p.comparedQuery collapsed) =
      p.comparedQuery collapsed :: p.baseQuery collapsed ::
        p.comparisons.map (p.comparisonQuery collapsed) := by
  have hcomparison : ∀ c, Sql.Query.levels (p.comparisonQuery collapsed c) =
      [p.comparisonQuery collapsed c] := fun c => Sql.Query.levels_of_tables h.selection.sources_are_tables
  rw [Sql.Query.levels_eq]
  simp only [Sql.Select.sources, comparedQuery, comparisonJoin, List.map_map, List.flatMap_cons,
    Sql.Source.levels, h.levels_baseQuery, List.flatMap_map, Function.comp_apply, hcomparison,
    List.cons_append, List.nil_append, ← List.map_eq_flatMap]

/-- A query in a statement is its base query, the query of a comparison, or the one around these. -/
theorem mem_levels_query (h : Resolved r settings p) {collapsed : List String} {q : Sql.Query}
    (hq : q ∈ Sql.Query.levels (p.query collapsed)) :
    q = p.baseQuery collapsed ∨ (∃ c ∈ p.comparisons, q = p.comparisonQuery collapsed c) ∨
      q = p.comparedQuery collapsed := by
  unfold query at hq
  split_ifs at hq with hempty
  · rw [h.levels_baseQuery, List.mem_singleton] at hq
    exact .inl hq
  · rw [h.levels_comparedQuery, List.mem_cons, List.mem_cons, List.mem_map] at hq
    rcases hq with hq | hq | ⟨c, hc, rfl⟩
    · exact .inr (.inr hq)
    · exact .inl hq
    · exact .inr (.inl ⟨c, hc, rfl⟩)

theorem namedApart_levels (h : Resolved r settings p) (collapsed : List String) :
    ∀ q ∈ Sql.Query.levels (p.query collapsed), r.NamedApart q := by
  intro q hq
  rcases h.mem_levels_query hq with rfl | ⟨c, -, rfl⟩ | rfl
  · exact h.namedApart_baseQuery collapsed
  · exact h.namedApart_comparisonQuery collapsed c
  · exact h.namedApart_comparedQuery collapsed

end Resolved

end Plan

/-! ## Statements -/

/-- In every query of every statement of a compiled request, at every depth, all names are given and none is
given twice. -/
theorem statements_named_apart {c : Compilation} (h : Compilation.ofRequest r settings = .ok c) :
    ∀ s ∈ c.statements, ∀ q ∈ Sql.Query.levels s.query, r.NamedApart q := by
  obtain ⟨p, hp, rfl⟩ := Compilation.ofRequest_eq_ok.mp h
  intro s hs
  rw [Compilation.query_of_mem hs]
  exact hp.namedApart_levels _

theorem statements_named_apart_clicksByDay :
    ∃ c, Compilation.ofRequest .clicksByDay .default = .ok c ∧
      (c.statements.flatMap fun s => Sql.Query.levels s.query).length = 9 ∧
      ∀ s ∈ c.statements, ∀ q ∈ Sql.Query.levels s.query, Request.clicksByDay.NamedApart q := by
  obtain ⟨c, hc⟩ := compiles_clicksByDay
  have hcount : (Compilation.ofRequest .clicksByDay .default).toOption.map (fun c =>
      (c.statements.flatMap fun s => Sql.Query.levels s.query).length) = some 9 := by
    decide +kernel
  rw [hc] at hcount
  exact ⟨c, hc, Option.some.inj hcount, statements_named_apart hc⟩

end CubeSql
