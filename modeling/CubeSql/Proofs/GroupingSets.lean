import CubeSql.Proofs.Aliases
import CubeSql.Proofs.GroupClause
import Mathlib.Data.List.Infix

/-!
# The grouping sets of the dialects

GROUP BY stands for a list of grouping sets: its plain entries with every prefix of the arguments of ROLLUP.
Where a dialect leaves out constants, an argument that holds nothing else leaves the list, and with it goes
one repetition of a set. All other sets are the same in all dialects.
-/

namespace CubeSql

namespace Sql

/-! ## Sets -/

section

variable {α β : Type}

/-- The items of `plain` with every prefix of the arguments, the shortest first. -/
def prefixSets (plain : List α) (args : List (List α)) : List (List α) :=
  args.inits.map fun front => plain ++ front.flatten

theorem prefixSets_nil (plain : List α) : prefixSets plain [] = [plain] := by
  simp [prefixSets]

/-- The first argument stands in all sets but the shortest. -/
theorem prefixSets_cons (plain arg : List α) (args : List (List α)) :
    prefixSets plain (arg :: args) = plain :: prefixSets (plain ++ arg) args := by
  simp [prefixSets, Function.comp_def]

theorem length_prefixSets (plain : List α) (args : List (List α)) :
    (prefixSets plain args).length = args.length + 1 := by
  rw [prefixSets, List.length_map, List.length_inits]

theorem mem_prefixSets_self (plain : List α) (args : List (List α)) :
    plain ∈ prefixSets plain args := by
  cases args with
  | nil => simp [prefixSets_nil]
  | cons arg args => simp [prefixSets_cons]

theorem map_filterMap_prefixSets (f : α → Option β) (plain : List α) (args : List (List α)) :
    (prefixSets plain args).map (List.filterMap f) =
      prefixSets (plain.filterMap f) (args.map (List.filterMap f)) := by
  induction args generalizing plain with
  | nil => simp [prefixSets_nil]
  | cons arg args ih =>
    rw [List.map_cons, prefixSets_cons, prefixSets_cons, List.map_cons, ih, List.filterMap_append]

/-- Without an argument the sets are the same, one repetition apart for each argument that is empty. -/
theorem prefixSets_filter_sublist (plain : List α) (args : List (List α)) :
    (prefixSets plain (args.filter (!·.isEmpty))).Sublist (prefixSets plain args) := by
  induction args generalizing plain with
  | nil => exact List.Sublist.refl _
  | cons arg args ih =>
    cases arg with
    | nil =>
      rw [List.filter_cons_of_neg (by simp), prefixSets_cons, List.append_nil]
      exact (ih plain).cons plain
    | cons a arg =>
      rw [List.filter_cons_of_pos (by simp), prefixSets_cons, prefixSets_cons]
      exact (ih _).cons_cons plain

theorem mem_prefixSets_filter {plain set : List α} {args : List (List α)}
    (h : set ∈ prefixSets plain args) : set ∈ prefixSets plain (args.filter (!·.isEmpty)) := by
  induction args generalizing plain with
  | nil => exact h
  | cons arg args ih =>
    rw [prefixSets_cons] at h
    rcases List.mem_cons.mp h with rfl | h
    · exact mem_prefixSets_self _ _
    · cases arg with
      | nil =>
        rw [List.append_nil] at h
        exact ih h
      | cons a arg =>
        rw [List.filter_cons_of_pos (by simp), prefixSets_cons]
        exact List.mem_cons_of_mem _ (ih h)

end

/-! ## Entries -/

namespace GroupItem

/-- The expression of an entry outside ROLLUP. -/
def plain? : GroupItem → Option Expr
  | expr e => some e
  | rollup _ => none

/-- The arguments of ROLLUP. -/
def arguments : GroupItem → List (List Expr)
  | expr _ => []
  | rollup args => args

theorem arguments_entries (es : List Expr) (args : List (List Expr)) :
    (es.map expr ++ rollupOf args).flatMap arguments = args := by
  have hplain : (es.map expr).flatMap arguments = [] := by
    simp [arguments, List.flatMap_map]
  have hrollup : (rollupOf args).flatMap arguments = args := by
    cases args with
    | nil => rfl
    | cons arg args => simp [rollupOf, arguments]
  rw [List.flatMap_append, hplain, hrollup, List.nil_append]

end GroupItem

/-- The grouping sets of entries of which at most one is a ROLLUP. -/
def groupingSets (entries : List GroupItem) : List (List Expr) :=
  prefixSets (entries.filterMap GroupItem.plain?) (entries.flatMap GroupItem.arguments)

/-- The expression that a group entry names, unless it is a constant. -/
def groupedTerm? (items : List SelectItem) (e : Expr) : Option Expr :=
  let grouped := groupedExpr items e
  if grouped.isLiteral then none else some grouped

/-- The expression itself, unless it is a constant. -/
def term? (e : Expr) : Option Expr := if e.isLiteral then none else some e

namespace Query

/-- The grouping sets of a query as it is written: what its entries name, without the constants. Only a
dialect that groups by aliases names anything by its entries. -/
def groupingSets (s : Spelling) (q : Query) : List (List Expr) :=
  (Sql.groupingSets (q.writtenGroups s)).map
    (List.filterMap (if s.groupsByAlias then groupedTerm? q.items else term?))

/-- The arguments of ROLLUP that name constants alone. -/
def constantArguments (q : Query) : List (List Expr) :=
  (q.groups.flatMap GroupItem.arguments).filter fun members =>
    members.all fun e => (groupedExpr q.items e).isLiteral

/-- GROUP BY has plain entries and after them at most one ROLLUP, which has no empty argument. -/
def SingleRollup (q : Query) : Prop :=
  ∃ (es : List Expr) (args : List (List Expr)),
    q.groups = es.map .expr ++ rollupOf args ∧ ∀ members ∈ args, members ≠ []

/-- DuckDB, which groups by aliases, and PostgreSQL, which does not, group by the same sets. For DuckDB the
list of sets has one repetition more for every argument of ROLLUP that names constants alone. -/
structure GroupedAlike (q : Query) : Prop where
  rollup : q.SingleRollup
  written : ∀ d : Dialect, q.WritesGroups d.spelling (q.writtenGroups d.spelling)
  alike : q.constantArguments = [] → q.groupingSets .duckdb = q.groupingSets .postgres
  sublist : (q.groupingSets .postgres).Sublist (q.groupingSets .duckdb)
  mem_iff : ∀ set, set ∈ q.groupingSets .duckdb ↔ set ∈ q.groupingSets .postgres
  repeated : (q.groupingSets .duckdb).length =
    (q.groupingSets .postgres).length + q.constantArguments.length

variable {s : Spelling} {q : Query}

theorem SingleRollup.members (h : q.SingleRollup) :
    ∀ members ∈ q.groups.flatMap GroupItem.arguments, members ≠ [] := by
  obtain ⟨es, args, hgroups, hargs⟩ := h
  rw [hgroups, GroupItem.arguments_entries]
  exact hargs

theorem plain_writtenGroups (s : Spelling) (q : Query) :
    (q.writtenGroups s).filterMap GroupItem.plain? =
      (q.groups.filterMap GroupItem.plain?).filterMap (groupTerm? s q.items) := by
  rw [writtenGroups, List.filterMap_filterMap, List.filterMap_filterMap]
  congr 1
  funext g
  cases g with
  | expr e =>
    simp only [GroupItem.written?, GroupItem.plain?, Option.bind_some]
    cases groupTerm? s q.items e <;> rfl
  | rollup args =>
    simp only [GroupItem.written?, GroupItem.plain?, Option.bind_none]
    split <;> rfl

theorem arguments_writtenGroups (s : Spelling) (q : Query) :
    (q.writtenGroups s).flatMap GroupItem.arguments =
      ((q.groups.flatMap GroupItem.arguments).map (List.filterMap (groupTerm? s q.items))).filter
        (!·.isEmpty) := by
  unfold writtenGroups
  induction q.groups with
  | nil => rfl
  | cons g groups ih =>
    rw [List.flatMap_cons, List.map_append, List.filter_append, ← ih]
    cases g with
    | expr e =>
      cases hterm : groupTerm? s q.items e <;>
        simp [GroupItem.written?, GroupItem.arguments, hterm]
    | rollup args =>
      cases hleft : (args.map fun members => members.filterMap (groupTerm? s q.items)).filter
          (!·.isEmpty) with
      | nil => simp [GroupItem.written?, GroupItem.arguments, hleft]
      | cons arg left => simp [GroupItem.written?, GroupItem.arguments, hleft]

theorem groupTerm?_of_alias (hs : s.groupsByAlias = true) (items : List SelectItem) :
    groupTerm? s items = some := by
  funext e
  exact if_pos hs

theorem groupTerm?_of_expr (hs : s.groupsByAlias = false) (items : List SelectItem) :
    groupTerm? s items = groupedTerm? items := by
  funext e
  exact if_neg (by simp [hs])

/-- What is left of a list after the constants are left out has no constants. -/
theorem filterMap_term? (items : List SelectItem) (es : List Expr) :
    (es.filterMap (groupedTerm? items)).filterMap term? = es.filterMap (groupedTerm? items) := by
  rw [List.filterMap_filterMap]
  congr 1
  funext e
  simp only [groupedTerm?]
  split_ifs with h
  · rfl
  · rw [Option.bind_some, term?, if_neg h]

/-- A dialect that groups by aliases writes every argument of ROLLUP. -/
theorem groupingSets_of_alias (hs : s.groupsByAlias = true) (h : q.SingleRollup) :
    q.groupingSets s = prefixSets ((q.groups.filterMap GroupItem.plain?).filterMap (groupedTerm? q.items))
      ((q.groups.flatMap GroupItem.arguments).map (List.filterMap (groupedTerm? q.items))) := by
  have hargs : (q.groups.flatMap GroupItem.arguments).filter (!·.isEmpty) =
      q.groups.flatMap GroupItem.arguments :=
    List.filter_eq_self.mpr fun members hm => by simpa using h.members members hm
  have hall : List.filterMap (some : Expr → Option Expr) = id := funext fun es => List.filterMap_some
  rw [groupingSets, Sql.groupingSets, if_pos hs, map_filterMap_prefixSets, plain_writtenGroups,
    arguments_writtenGroups, groupTerm?_of_alias hs, hall, List.map_id, hargs, id_eq]

/-- A dialect that does not leaves out those that name constants alone. -/
theorem groupingSets_of_expr (hs : s.groupsByAlias = false) :
    q.groupingSets s = prefixSets ((q.groups.filterMap GroupItem.plain?).filterMap (groupedTerm? q.items))
      (((q.groups.flatMap GroupItem.arguments).map (List.filterMap (groupedTerm? q.items))).filter
        (!·.isEmpty)) := by
  have hterms : List.filterMap term? ∘ List.filterMap (groupedTerm? q.items) =
      List.filterMap (groupedTerm? q.items) := by
    funext es
    exact filterMap_term? q.items es
  rw [groupingSets, Sql.groupingSets, if_neg (by simp [hs]), map_filterMap_prefixSets,
    plain_writtenGroups, arguments_writtenGroups, groupTerm?_of_expr hs, filterMap_term?]
  congr 1
  rw [List.map_congr_left (g := id), List.map_id]
  intro members hm
  obtain ⟨es, -, rfl⟩ := List.mem_map.mp (List.mem_filter.mp hm).1
  exact filterMap_term? q.items es

/-- The arguments that name constants alone are those of which nothing is left. -/
theorem length_constantArguments (q : Query) :
    ((q.groups.flatMap GroupItem.arguments).map (List.filterMap (groupedTerm? q.items))).length =
      (((q.groups.flatMap GroupItem.arguments).map (List.filterMap (groupedTerm? q.items))).filter
        (!·.isEmpty)).length + q.constantArguments.length := by
  have hconstant : ∀ members : List Expr,
      (members.all fun e => (groupedExpr q.items e).isLiteral) =
        (members.filterMap (groupedTerm? q.items)).isEmpty := by
    intro members
    induction members with
    | nil => rfl
    | cons e es ih =>
      rw [List.all_cons, ih]
      cases h : (groupedExpr q.items e).isLiteral <;> simp [groupedTerm?, h]
  unfold constantArguments
  induction q.groups.flatMap GroupItem.arguments with
  | nil => rfl
  | cons members args ih =>
    rw [List.map_cons, List.filter_cons, List.filter_cons, hconstant members]
    cases h : (members.filterMap (groupedTerm? q.items)).isEmpty <;>
      simp only [Bool.not_true, Bool.not_false, if_true, Bool.false_eq_true, if_false,
        List.length_cons] <;> omega

theorem groupedAlike (h : q.SingleRollup) : q.GroupedAlike := by
  have hduckdb := groupingSets_of_alias (s := .duckdb) rfl h
  have hpostgres := groupingSets_of_expr (s := .postgres) (q := q) rfl
  -- The two lists of arguments differ in those of which nothing is left, and each of them repeats a set.
  have hsublist : (q.groupingSets .postgres).Sublist (q.groupingSets .duckdb) := by
    rw [hduckdb, hpostgres]
    exact prefixSets_filter_sublist _ _
  have hrepeated : (q.groupingSets .duckdb).length =
      (q.groupingSets .postgres).length + q.constantArguments.length := by
    have hlength := q.length_constantArguments
    rw [hduckdb, hpostgres, length_prefixSets, length_prefixSets]
    omega
  refine ⟨h, fun d => q.writesGroups d.spelling, fun hnone => ?_, hsublist, fun set => ⟨?_, ?_⟩,
    hrepeated⟩
  · rw [hnone] at hrepeated
    exact (hsublist.eq_of_length hrepeated.symm).symm
  · intro hset
    rw [hduckdb] at hset
    rw [hpostgres]
    exact mem_prefixSets_filter hset
  · exact fun hset => hsublist.mem hset

end Query

end Sql

/-! ## The queries of a plan -/

theorem Grouping.plainEntries_eq_map (columns : List DimensionColumn) :
    plainEntries columns = (columns.map (aliasRef none)).map .expr := by
  rw [List.map_map]
  rfl

namespace Plan

variable {r : Request} {settings : Settings} {p : Plan}

theorem singleRollup_baseQuery (p : Plan) (collapsed : List String) :
    (p.baseQuery collapsed).SingleRollup := by
  have hentries := p.grouping.rollupEntries_eq
  rw [Grouping.plainEntries_eq_map] at hentries
  refine ⟨_, _, hentries, fun members hm => ?_⟩
  obtain ⟨run, hrun, rfl⟩ := List.mem_map.mp hm
  exact fun hnil => Grouping.runs_ne_nil _ _ run hrun (List.map_eq_nil_iff.mp hnil)

theorem singleRollup_comparisonQuery (p : Plan) (collapsed : List String) (c : Comparison) :
    (p.comparisonQuery collapsed c).SingleRollup := by
  refine ⟨p.declared.grouped.map (Grouping.aliasRef none), [], ?_, nofun⟩
  rw [Sql.rollupOf, List.append_nil]
  exact Grouping.plainEntries_eq_map _

theorem singleRollup_comparedQuery (p : Plan) (collapsed : List String) :
    (p.comparedQuery collapsed).SingleRollup := ⟨[], [], rfl, nofun⟩

theorem Resolved.singleRollup_levels (h : Resolved r settings p) (collapsed : List String) :
    ∀ q ∈ Sql.Query.levels (p.query collapsed), Sql.Query.SingleRollup q := by
  intro q hq
  rcases h.mem_levels_query hq with rfl | ⟨c, -, rfl⟩ | rfl
  · exact p.singleRollup_baseQuery collapsed
  · exact p.singleRollup_comparisonQuery collapsed c
  · exact p.singleRollup_comparedQuery collapsed

end Plan

/-! ## Statements -/

/-- In every query of every statement of a compiled request, at every depth, DuckDB and PostgreSQL group by
the same sets, with the same repetitions unless an argument of ROLLUP names constants alone. -/
theorem dialects_group_alike {r : Request} {settings : Settings} {c : Compilation}
    (h : Compilation.ofRequest r settings = .ok c) :
    ∀ s ∈ c.statements, ∀ q ∈ Sql.Query.levels s.query, Sql.Query.GroupedAlike q := by
  obtain ⟨p, hp, rfl⟩ := Compilation.ofRequest_eq_ok.mp h
  intro s hs q hq
  rw [Compilation.query_of_mem hs] at hq
  exact Sql.Query.groupedAlike (hp.singleRollup_levels _ q hq)

/-- Clicks from one source by country and day: the source, which is a constant, and the country are rolled up
together, and the day, which is totalled, after them. -/
def Request.rolledUpClicks : Request where
  table := "clicks"
  joins := []
  dimensions := [.plain ⟨"source", .text, .ofValue (.text "web"), by decide⟩,
    .plain .country, .totalled .day]
  metrics := [⟨.clicks⟩]
  filters := []
  references := []
  rollup := [.composite ["source", "country"], .single "day"]
  limit := none
  offset := none

/-- The numbers of grouping sets of the queries of a compiled request's statements. -/
def Compilation.countSets (d : Sql.Dialect) (c : Compilation) : List (List Nat) :=
  c.statements.map fun s => (Sql.Query.levels s.query).map fun q => (Sql.Query.groupingSets d.spelling q).length

/-- The day alone is rolled up by an argument of its own, and it is a constant in its totals. -/
theorem countSets_rolledUpClicks : ∃ c, Compilation.ofRequest .rolledUpClicks .default = .ok c ∧
    c.countSets .duckdb = [[3], [3]] ∧ c.countSets .postgres = [[3], [2]] := by
  have hcounts : (Compilation.ofRequest .rolledUpClicks .default).toOption.map
      (fun c => (c.countSets .duckdb, c.countSets .postgres)) = some ([[3], [3]], [[3], [2]]) := by
    decide +kernel
  obtain ⟨c, hc⟩ : ∃ c, Compilation.ofRequest .rolledUpClicks .default = .ok c :=
    exists_of_isOk (by decide +kernel)
  rw [hc] at hcounts
  obtain ⟨hduckdb, hpostgres⟩ := Prod.mk.inj (Option.some.inj hcounts)
  exact ⟨c, hc, hduckdb, hpostgres⟩

theorem dialects_group_alike_rolledUpClicks :
    ∃ c, Compilation.ofRequest .rolledUpClicks .default = .ok c ∧
      c.countSets .duckdb = [[3], [3]] ∧ c.countSets .postgres = [[3], [2]] ∧
      ∀ s ∈ c.statements, ∀ q ∈ Sql.Query.levels s.query, Sql.Query.GroupedAlike q := by
  obtain ⟨c, hc, hduckdb, hpostgres⟩ := countSets_rolledUpClicks
  exact ⟨c, hc, hduckdb, hpostgres, dialects_group_alike hc⟩

/-- In the totals of the day PostgreSQL lacks the repetition that DuckDB has. -/
theorem totalled_day_grouped_apart_rolledUpClicks :
    ∃ c, Compilation.ofRequest .rolledUpClicks .default = .ok c ∧
      ∃ s ∈ c.statements, ∃ q ∈ Sql.Query.levels s.query,
        Sql.Query.groupingSets .duckdb q ≠ Sql.Query.groupingSets .postgres q := by
  obtain ⟨c, hc, hduckdb, hpostgres⟩ := countSets_rolledUpClicks
  refine ⟨c, hc, ?_⟩
  by_contra hnone
  push Not at hnone
  have hsame : c.countSets .duckdb = c.countSets .postgres := by
    refine List.map_congr_left fun s hs => List.map_congr_left fun q hq => ?_
    exact congrArg List.length (hnone s hs q hq)
  rw [hduckdb, hpostgres] at hsame
  exact absurd hsame (by decide)

end CubeSql
