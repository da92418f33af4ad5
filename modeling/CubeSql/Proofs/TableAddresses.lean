import CubeSql.Proofs.Aliases
import CubeSql.Proofs.FaithfulLowering

/-!
# How tables are addressed

The tables of a query have aliases by their places, while columns name tables by their names. The two agree for
the base table and for the first table of every name. A table joined under the name of an earlier one has an
alias of its own, but columns that name it read the earlier one.
-/

namespace CubeSql

/-! ## Scopes -/

namespace Scope

/-- A column that names the table is qualified by the alias. -/
def Addresses (s : Scope) (table aliasName : Option String) : Prop :=
  ∀ name, (Expr.column table name).lower s = .ok (.column aliasName name)

variable {s : Scope}

theorem addresses_iff {table aliasName : Option String} :
    s.Addresses table aliasName ↔ s.qualifier table = .ok aliasName := by
  constructor
  · intro h
    have hlower := h ""
    simp only [Expr.lower, Expr.lowerWith, bind_eq_ok, pure_eq_ok] at hlower
    obtain ⟨q, hq, heq⟩ := hlower
    rw [hq, (Sql.Expr.column.inj heq).1]
  · intro h name
    rw [Expr.lower, Expr.lowerWith, h]
    rfl

/-- Columns are addressed alike at every depth of an expression. -/
theorem addresses_of_lower {e : Expr} {e' : Sql.Expr} (h : e.lower s = .ok e') :
    List.Forall₂ (fun c c' => s.Addresses c.1 c'.1 ∧ c'.2 = c.2) e.mentions e'.occurrences :=
  (Expr.qualified_of_lowerWith h).imp fun _ _ hc => ⟨addresses_iff.mpr hc.1, hc.2.symm⟩

theorem addresses_base (s : Scope) : s.Addresses (some s.base) (s.qualifierAt 0) := by
  rw [addresses_iff, qualifier, position?, if_pos rfl]

/-- The position found for a table's name is the table's own if no table before it has the name. -/
theorem idxOf?_eq_position_iff {tables : List String} {i k : Nat} {name : String}
    (h : tables[i]? = some name) (hk : tables.idxOf? name = some k) : k = i ↔ name ∉ tables.take i := by
  obtain ⟨hi, hname⟩ := List.getElem?_eq_some_iff.mp h
  obtain ⟨hlt, hfound, hbefore⟩ := List.idxOf?_eq_some_iff.mp hk
  constructor
  · rintro rfl hmem
    obtain ⟨l, hl, heq⟩ := List.mem_take_iff_getElem.mp hmem
    exact hbefore l (by omega) heq
  · intro hnone
    by_contra hne
    rcases Nat.lt_or_gt_of_ne hne with hki | hik
    · exact hnone (List.mem_take_iff_getElem.mpr ⟨k, by omega, hfound⟩)
    · exact hbefore i hik hname

/-- A joined table is addressed by its alias exactly if it is the first of its name. -/
theorem addresses_joined_iff {i : Nat} {name : String} (h : s.joined[i]? = some name) :
    s.Addresses (some name) (some (aliasAt (i + 1))) ↔ name ∉ s.base :: s.joined.take i := by
  have halias := qualifierAt_of_getElem? h
  rw [addresses_iff, qualifier, position?, List.mem_cons, not_or]
  by_cases hbase : name = s.base
  · simp [hbase, halias, aliasAt_injective.eq_iff]
  · obtain ⟨k, hk⟩ : ∃ k, s.joined.idxOf? name = some k :=
      Option.isSome_iff_exists.mp (List.isSome_idxOf?.mpr (List.mem_of_getElem? h))
    simp only [hbase, if_false, hk, Option.map_some, halias, Except.ok.injEq, Option.some.injEq,
      aliasAt_injective.eq_iff, Nat.add_right_cancel_iff, not_false_eq_true, true_and]
    exact idxOf?_eq_position_iff h hk

end Scope

/-! ## Queries over tables -/

/-- The query reads tables and no queries. -/
def Sql.Query.OverTables (q : Sql.Query) : Prop := ∀ s ∈ q.sources, ∃ name aliasName, s = .table name aliasName

/-- A query over the tables of a request, in which columns are resolved against the scope. -/
structure Request.AddressesTables (r : Request) (scope : Scope) (q : Sql.Query) : Prop where
  /-- Columns of the base table are qualified by the alias that it is selected from under. -/
  base : ∃ aliasName, q.source = .table r.table aliasName ∧ scope.Addresses none aliasName ∧
    scope.Addresses (some r.table) aliasName
  /-- There is a join for each of the request. -/
  length : q.joins.length = r.joins.length
  /-- Its table has an alias, by which the columns that name the table are qualified exactly if it is the first
  table of that name. -/
  joined : ∀ i j, r.joins[i]? = some j → ∃ qj, q.joins[i]? = some qj ∧
    qj.source = .table j.table (some (Scope.aliasAt (i + 1))) ∧
    List.Forall₂ (fun e e' => e.lower scope = .ok e') j.on.conjuncts qj.on ∧
    (scope.Addresses (some j.table) (some (Scope.aliasAt (i + 1))) ↔
      j.table ∉ r.table :: (r.joins.take i).map Join.table)
  /-- No two tables have the same alias. -/
  apart : (q.sources.map Sql.Source.aliasName?).Nodup

variable {r : Request} {settings : Settings}

namespace Selection.Resolved

variable {s : Selection}

/-- The join of a request at a position joins its table under the alias of that position. -/
theorem exists_join (h : Resolved r s) {i : Nat} {j : Join} (hj : r.joins[i]? = some j) :
    ∃ qj, s.joins[i]? = some qj ∧ qj.source = .table j.table (some (Scope.aliasAt (i + 1))) ∧
      List.Forall₂ (fun e e' => e.lower s.scope = .ok e') j.on.conjuncts qj.on := by
  have hjp : r.joins.zipIdx[i]? = some (j, i) := by simp [hj]
  obtain ⟨qj, hqj, hresolve⟩ := exists_getElem?_of_forall₂ h.joins hjp
  obtain ⟨source, hsource, on, hon, rfl⟩ := Join.resolve_eq_ok.mp hresolve
  obtain ⟨name, hname, rfl⟩ := Scope.joinSource_eq_ok.mp hsource
  have hnamed : name = j.table := by
    rw [h.scope, List.getElem?_map, hj] at hname
    exact (Option.some.inj hname).symm
  exact ⟨_, hqj, by rw [hnamed], hon⟩

theorem aliases_nodup (h : Resolved r s) :
    ((s.scope.baseSource :: s.joins.map Sql.JoinOf.source).map Sql.Source.aliasName?).Nodup := by
  by_cases hjoins : s.joins = []
  · rw [hjoins]
    exact List.nodup_singleton _
  · rw [h.aliases_of_joins hjoins]
    exact r.tableAliases_nodup.map fun _ _ => Option.some.inj

theorem addressesTables (h : Resolved r s) {q : Sql.Query} (hsource : q.source = s.scope.baseSource)
    (hjoins : q.joins = s.joins) : r.AddressesTables s.scope q where
  base := by
    have hbase : s.scope.base = r.table := by rw [h.scope]
    have haddresses := s.scope.addresses_base
    rw [hbase] at haddresses
    exact ⟨_, by rw [hsource, Scope.baseSource, hbase], Scope.addresses_iff.mpr rfl, haddresses⟩
  length := by rw [hjoins, h.length_joins, h.scope, List.length_map]
  joined i j hj := by
    obtain ⟨qj, hqj, hjoined, hon⟩ := h.exists_join hj
    have hname : s.scope.joined[i]? = some j.table := by rw [h.scope, List.getElem?_map, hj, Option.map_some]
    have htables : s.scope.base :: s.scope.joined.take i = r.table :: (r.joins.take i).map Join.table := by
      rw [h.scope, List.map_take]
    exact ⟨qj, by rw [hjoins, hqj], hjoined, hon, htables ▸ Scope.addresses_joined_iff hname⟩
  apart := by
    rw [Sql.Select.sources, hsource, hjoins]
    exact h.aliases_nodup

end Selection.Resolved

namespace Plan

variable {p : Plan}

/-- The query around the comparisons reads queries. -/
theorem not_overTables_comparedQuery (collapsed : List String) :
    ¬ Sql.Query.OverTables (p.comparedQuery collapsed) := by
  intro h
  obtain ⟨name, aliasName, hsource⟩ := h (p.comparedQuery collapsed).source List.mem_cons_self
  exact absurd hsource nofun

namespace Resolved

/-- The base query, which every statement holds, reads tables. -/
theorem exists_overTables_levels (h : Resolved r settings p) (collapsed : List String) :
    ∃ q ∈ Sql.Query.levels (p.query collapsed), Sql.Query.OverTables q := by
  refine ⟨p.baseQuery collapsed, ?_, h.selection.sources_are_tables⟩
  unfold query
  split_ifs
  · rw [h.levels_baseQuery]
    exact List.mem_singleton_self _
  · rw [h.levels_comparedQuery]
    exact List.mem_cons_of_mem _ List.mem_cons_self

theorem addressesTables_levels (h : Resolved r settings p) (collapsed : List String) :
    ∀ q ∈ Sql.Query.levels (p.query collapsed), Sql.Query.OverTables q →
      r.AddressesTables p.selection.scope q := by
  intro q hq htables
  rcases h.mem_levels_query hq with rfl | ⟨c, -, rfl⟩ | rfl
  · exact h.selection.addressesTables rfl rfl
  · exact h.selection.addressesTables rfl rfl
  · exact absurd htables (not_overTables_comparedQuery collapsed)

end Resolved

end Plan

/-! ## Statements -/

/-- Every statement of a compiled request holds a query over tables. In each of these, the columns that name the
base table are qualified by its alias, those that name a joined table by its alias exactly if no earlier table
has the same name, and the aliases differ. In an expression all columns are qualified so. -/
theorem tables_addressed_iff_first {c : Compilation} (h : Compilation.ofRequest r settings = .ok c) :
    ∃ scope, Scope.ofRequest r = .ok scope ∧
      (∀ s ∈ c.statements, (∃ q ∈ Sql.Query.levels s.query, Sql.Query.OverTables q) ∧
        ∀ q ∈ Sql.Query.levels s.query, Sql.Query.OverTables q → r.AddressesTables scope q) ∧
      ∀ e e', Expr.lower scope e = .ok e' →
        List.Forall₂ (fun c c' => scope.Addresses c.1 c'.1 ∧ c'.2 = c.2) e.mentions e'.occurrences := by
  obtain ⟨p, hp, rfl⟩ := Compilation.ofRequest_eq_ok.mp h
  refine ⟨p.selection.scope,
    Scope.ofRequest_eq_ok.mpr ⟨hp.selection.table_not_blank, hp.selection.scope⟩, fun s hs => ?_,
    fun e e' hlower => Scope.addresses_of_lower hlower⟩
  rw [Compilation.query_of_mem hs]
  exact ⟨hp.exists_overTables_levels _, hp.addressesTables_levels _⟩

/-- Clicks in visits by country, over the site visited and the pages on which a visit began and ended. -/
def Request.visitsByPages : Request where
  table := "visits"
  joins := [⟨"sites", .binary .eq (.column none "site_id") (.column (some "sites") "id"), .left⟩,
    ⟨"pages", .binary .eq (.column none "entry_id") (.column (some "pages") "id"), .left⟩,
    ⟨"pages", .binary .eq (.column none "exit_id") (.column (some "pages") "id"), .left⟩]
  dimensions := [.plain .country]
  metrics := [⟨.clicks⟩]
  filters := []
  references := []
  rollup := []
  limit := none
  offset := none

/-- The sites and the first pages are addressed by their aliases, the second pages are not. -/
theorem tables_addressed_iff_first_visitsByPages :
    ∃ c scope, Compilation.ofRequest .visitsByPages .default = .ok c ∧
      ∃ s ∈ c.statements, Request.visitsByPages.AddressesTables scope s.query ∧
        scope.Addresses (some "sites") (some "t1") ∧ scope.Addresses (some "pages") (some "t2") ∧
        ¬ scope.Addresses (some "pages") (some "t3") := by
  obtain ⟨c, hc⟩ : ∃ c, Compilation.ofRequest .visitsByPages .default = .ok c :=
    exists_of_isOk (by decide +kernel)
  obtain ⟨scope, -, haddressed, -⟩ := tables_addressed_iff_first hc
  obtain ⟨p, hp, rfl⟩ := Compilation.ofRequest_eq_ok.mp hc
  have htables : Sql.Query.OverTables (p.query []) := by
    rw [hp.query_eq_baseQuery rfl]
    exact hp.selection.sources_are_tables
  have hquery : Request.visitsByPages.AddressesTables scope (p.query []) :=
    (haddressed ⟨.base, p.query []⟩ List.mem_cons_self).2 _
      (by rw [Sql.Query.levels_eq]; exact List.mem_cons_self) htables
  obtain ⟨-, -, -, -, hsites⟩ := hquery.joined 0 _ rfl
  obtain ⟨-, -, -, -, hentries⟩ := hquery.joined 1 _ rfl
  obtain ⟨-, -, -, -, hexits⟩ := hquery.joined 2 _ rfl
  exact ⟨_, scope, hc, ⟨.base, p.query []⟩, List.mem_cons_self, hquery, hsites.mpr (by decide),
    hentries.mpr (by decide), mt hexits.mp (by decide)⟩

/-- The pages on which the visits ended are joined by the identifier of those on which they began. -/
theorem exit_pages_not_addressed_visitsByPages :
    Request.visitsByPages.joins[2]?.map Join.table = some "pages" ∧
    ∃ c, Compilation.ofRequest .visitsByPages .default = .ok c ∧
      (c.statements.map fun s => s.query.joins.map fun j =>
        (j.source.aliasName?, j.on.flatMap Sql.Expr.occurrences)) =
        [[(some "t1", [(some "t0", "site_id"), (some "t1", "id")]),
          (some "t2", [(some "t0", "entry_id"), (some "t2", "id")]),
          (some "t3", [(some "t0", "exit_id"), (some "t2", "id")])]] :=
  ⟨rfl, exists_of_map_toOption (by decide +kernel)⟩

end CubeSql
