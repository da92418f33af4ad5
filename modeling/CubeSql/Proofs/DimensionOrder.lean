import CubeSql.Proofs.SplitFrame
import CubeSql.Proofs.Validity

/-!
# The order of the dimensions

SELECT and ORDER BY list the grouped columns of the base query in one order. GROUP BY lists those that are not
rolled up first and the rolled up ones after them, each in that order. So the three agree unless a rolled up
column stands before one that is totalled only: the columns that are neither come before all others.
-/

namespace CubeSql

/-- A list is its items without a property and then those with it exactly if no item with the property stands
before one without. -/
theorem filter_not_append_filter_eq_iff {α : Type} {p : α → Bool} {items : List α} :
    items.filter (fun a => !p a) ++ items.filter p = items ↔
      items.Pairwise fun a b => p a = true → p b = true := by
  induction items with
  | nil => simp
  | cons a items ih =>
    rw [List.pairwise_cons, ← ih]
    by_cases ha : p a = true
    · rw [List.filter_cons_of_neg (by simp [ha]), List.filter_cons_of_pos ha]
      constructor
      · intro h
        -- The first item has the property, so none without it can stand in front.
        cases hnone : items.filter fun b => !p b with
        | nil =>
          have hall : ∀ b ∈ items, p b = true := by
            intro b hb
            simpa using List.filter_eq_nil_iff.mp hnone b hb
          exact ⟨fun b hb _ => hall b hb, List.filter_eq_self.mpr hall⟩
        | cons b rest =>
          rw [hnone, List.cons_append, List.cons.injEq] at h
          have hb : b ∈ items.filter fun b => !p b := by
            rw [hnone]
            exact List.mem_cons_self
          have hnot := (List.mem_filter.mp hb).2
          rw [h.1, ha] at hnot
          cases hnot
      · rintro ⟨hall, -⟩
        have hnone : (items.filter fun b => !p b) = [] :=
          List.filter_eq_nil_iff.mpr fun b hb => by simp [hall b hb ha]
        rw [hnone, List.nil_append, List.filter_eq_self.mpr fun b hb => hall b hb ha]
    · rw [List.filter_cons_of_pos (by simp [ha]), List.filter_cons_of_neg ha, List.cons_append,
        List.cons.injEq]
      simp [ha]

theorem DimensionColumn.filter_map_aliasName {columns : List DimensionColumn} {p : String → Bool}
    {q : DimensionColumn → Bool} (h : ∀ d ∈ columns, p d.aliasName = q d) :
    (columns.map aliasName).filter p = (columns.filter q).map aliasName := by
  rw [List.filter_map]
  congr 1
  exact List.filter_congr h

/-! ## What is listed -/

namespace Request

/-- The names of the dimension columns that are grouped by. -/
def groupedNames (r : Request) : List String := ((r.headings.filter Prod.snd).map Prod.fst).map aliasFor

/-- The names of the columns that the rollup groups name. -/
def rolledNames (r : Request) : List String := (r.rollup.flatMap RollupGroup.keys).map aliasFor

/-- The names of the totalled columns. -/
def totalledNames (r : Request) : List String := r.totalsKeys.map aliasFor

end Request

/-- A query that selects its grouped columns in the order of `names`, and sorts by them in this order. It
groups by them in the same order exactly if none that is rolled up comes before one that is totalled only. -/
structure Sql.Query.ListsDimensions (r : Request) (q : Query) (names : List String) : Prop where
  /-- All grouped columns are listed. -/
  perm : names.Perm r.groupedNames
  /-- SELECT lists them in this order, among others. -/
  select : q.aliases.filter (· ∈ r.groupedNames) = names
  /-- ORDER BY lists them in this order. -/
  order : q.orderExprs = names.map (.column none)
  /-- GROUP BY lists the rolled up ones last. -/
  groups : q.groupExprs =
    (names.filter (· ∉ r.rolledNames) ++ names.filter (· ∈ r.rolledNames)).map (.column none)
  /-- When that is the same order. -/
  agree : q.groupExprs = q.orderExprs ↔
    names.Pairwise fun a b => a ∈ r.rolledNames → b ∈ r.totalledNames → b ∈ r.rolledNames

/-! ## Rolled up columns -/

namespace Grouping

variable {groups : List (List String)} {columns : List DimensionColumn}

/-- Once the members of the rollup groups are gathered, the runs are the same. -/
theorem runs_gather (groups : List (List String)) (columns : List DimensionColumn) :
    runs groups (gather groups columns) = runs groups columns := by
  unfold gather
  induction columns using runs_induction groups with
  | nil => simp [runs]
  | alone d rest hgroup ih =>
    rw [runs_alone hgroup, List.flatten_cons, List.singleton_append, runs_alone hgroup, ih]
  | led d rest g hgroup ih =>
    -- The members stand in front, and the others after them hold no member.
    have hmembers : ∀ c ∈ rest.filter (groupOf? groups · == some g), groupOf? groups c = some g := by
      intro c hc
      simpa using (List.mem_filter.mp hc).2
    have hothers : ∀ c ∈ (runs groups (rest.filter (groupOf? groups · != some g))).flatten,
        groupOf? groups c ≠ some g := by
      intro c hc
      simpa using (List.mem_filter.mp ((gather_perm groups _).mem_iff.mp hc)).2
    rw [runs_led hgroup, List.flatten_cons, List.cons_append, runs_led hgroup]
    generalize rest.filter (groupOf? groups · == some g) = members at hmembers ⊢
    generalize hleft : runs groups (rest.filter (groupOf? groups · != some g)) = left at ih hothers ⊢
    have hkept : (members ++ left.flatten).filter (groupOf? groups · == some g) = members := by
      rw [List.filter_append, List.filter_eq_self.mpr fun c hc => by simp [hmembers c hc],
        List.filter_eq_nil_iff.mpr fun c hc => by simp [hothers c hc], List.append_nil]
    have hrest : (members ++ left.flatten).filter (groupOf? groups · != some g) = left.flatten := by
      rw [List.filter_append, List.filter_eq_nil_iff.mpr fun c hc => by simp [hmembers c hc],
        List.filter_eq_self.mpr fun c hc => by simp [hothers c hc], List.nil_append]
    rw [hkept, hrest, ih]

/-- Gathering the members of the rollup groups once more changes nothing. -/
theorem gather_gather (groups : List (List String)) (columns : List DimensionColumn) :
    gather groups (gather groups columns) = gather groups columns :=
  congrArg List.flatten (runs_gather groups columns)

/-- Columns outside all rollup groups that stand in front stay there. -/
theorem gather_append {front : List DimensionColumn} (h : ∀ d ∈ front, groupOf? groups d = none)
    (rest : List DimensionColumn) : gather groups (front ++ rest) = front ++ gather groups rest := by
  induction front with
  | nil => rfl
  | cons d front ih =>
    rw [List.forall_mem_cons] at h
    have hrest := ih h.2
    unfold gather at hrest ⊢
    rw [List.cons_append, runs_alone h.1, List.flatten_cons, hrest]
    rfl

/-- Where all that is rolled up is grouped, the grouped columns in the rollup groups are all columns in them. -/
theorem filter_isSome_grouped {g : Grouping}
    (hgrouped : ∀ d ∈ g.columns, (groupOf? g.groups d).isSome = true → d.grouped = true) :
    (g.grouped.filter fun d => (groupOf? g.groups d).isSome) =
      g.columns.filter fun d => (groupOf? g.groups d).isSome := by
  rw [grouped, List.filter_filter]
  refine List.filter_congr fun d hd => ?_
  have hd' := hgrouped d hd
  cases hsome : (groupOf? g.groups d).isSome <;> simp_all

/-- Where gathering has no effect, the runs of the columns in the rollup groups are these columns in order. -/
theorem flatten_runs {g : Grouping} (hgathered : gather g.groups g.columns = g.columns) :
    (runs g.groups (g.columns.filter fun d => (groupOf? g.groups d).isSome)).flatten =
      g.columns.filter fun d => (groupOf? g.groups d).isSome := by
  have hfilter : (gather g.groups g.columns).filter (fun d => (groupOf? g.groups d).isSome) =
      gather g.groups (g.columns.filter fun d => (groupOf? g.groups d).isSome) :=
    filter_gather fun _ _ hd => hd
  rw [hgathered] at hfilter
  exact hfilter.symm

/-- Where gathering has no effect and all that is rolled up is grouped, GROUP BY lists the columns outside all
rollup groups and then the others, each in their order. -/
theorem exprs_rollupEntries_eq {g : Grouping} (hgathered : gather g.groups g.columns = g.columns)
    (hgrouped : ∀ d ∈ g.columns, (groupOf? g.groups d).isSome = true → d.grouped = true) :
    g.rollupEntries.flatMap Sql.GroupItem.exprs =
      (g.grouped.filter (fun d => (groupOf? g.groups d).isNone) ++
        g.grouped.filter fun d => (groupOf? g.groups d).isSome).map (aliasRef none) := by
  have hruns := flatten_runs hgathered
  have hargs : (Sql.rollupOf ((runs g.groups (g.columns.filter fun d => (groupOf? g.groups d).isSome)).map
      (List.map (aliasRef none)))).flatMap Sql.GroupItem.exprs =
      (g.columns.filter fun d => (groupOf? g.groups d).isSome).map (aliasRef none) := by
    rw [← hruns, List.map_flatten, hruns]
    cases runs g.groups (g.columns.filter fun d => (groupOf? g.groups d).isSome) with
    | nil => rfl
    | cons arg args => exact List.append_nil _
  rw [rollupEntries_eq, List.flatMap_append, exprs_plainEntries, List.map_append,
    filter_isSome_grouped hgrouped, hargs]

end Grouping

namespace Plan.Resolved

variable {r : Request} {settings : Settings} {p : Plan}

theorem gather_columns (h : Resolved r settings p) :
    Grouping.gather p.grouping.groups p.grouping.columns = p.grouping.columns := by
  obtain ⟨columns, kept, added, -, -, hgrouping⟩ := h.exists_rolledUp
  rw [hgrouping]
  exact Grouping.gather_gather _ _

/-- The columns that are neither totalled nor rolled up come before all others. -/
theorem pairwise_flagged (h : Resolved r settings p) :
    p.grouping.columns.Pairwise fun a b => a.isFlagged = true → b.isFlagged = true := by
  obtain ⟨columns, kept, added, -, -, hgrouping⟩ := h.exists_rolledUp
  rw [hgrouping, Grouping.flaggedLast]
  generalize columns.map (rolledUp (r.rollup.flatMap RollupGroup.keys)) = marked
  have hplain : ∀ d ∈ marked.filter (!·.isFlagged), d.isFlagged = false := by
    intro d hd
    simpa using (List.mem_filter.mp hd).2
  have halone : ∀ d ∈ marked.filter (!·.isFlagged),
      Grouping.groupOf? (r.rollup.map RollupGroup.keys) d = none := fun d hd =>
    Grouping.groupOf?_eq_none (hplain d hd)
  have hflagged : ∀ d ∈ Grouping.gather (r.rollup.map RollupGroup.keys) (marked.filter (·.isFlagged)),
      d.isFlagged = true := by
    intro d hd
    exact (List.mem_filter.mp ((Grouping.gather_perm _ _).mem_iff.mp hd)).2
  rw [Grouping.gather_append halone, List.pairwise_append]
  refine ⟨List.pairwise_of_forall_mem_list fun a ha b _ hfa => ?_,
    List.pairwise_of_forall_mem_list fun a _ b hb _ => hflagged b hb, fun a _ b hb _ => hflagged b hb⟩
  rw [hplain a ha] at hfa
  cases hfa

theorem isSome_groupOf?_iff (h : Resolved r settings p) {d : DimensionColumn}
    (hd : d ∈ p.grouping.columns) :
    (Grouping.groupOf? p.grouping.groups d).isSome = true ↔ d.rollup = true := by
  refine ⟨Grouping.rollup_of_groupOf?, fun hrollup => ?_⟩
  have hkey := (h.rollup_iff hd).mp hrollup
  rw [h.groups_eq, Grouping.groupOf?, if_pos hrollup, List.findIdx?_isSome, List.any_map, List.any_eq_true]
  obtain ⟨g, hg, hmem⟩ := List.mem_flatMap.mp hkey
  exact ⟨g, hg, decide_eq_true hmem⟩

/-! ## Names of columns -/

theorem keys_grouped_perm (h : Resolved r settings p) :
    (p.grouping.grouped.map DimensionColumn.key).Perm ((r.headings.filter Prod.snd).map Prod.fst) := by
  have hheadings := (h.headings_perm.filter Prod.snd).map Prod.fst
  rw [List.filter_map, List.map_map] at hheadings
  exact hheadings

theorem groupedNames_perm (h : Resolved r settings p) :
    (p.grouping.grouped.map DimensionColumn.aliasName).Perm r.groupedNames := by
  rw [DimensionColumn.map_aliasName]
  exact h.keys_grouped_perm.map aliasFor

theorem mem_groupedNames_iff (h : Resolved r settings p) {d : DimensionColumn}
    (hd : d ∈ p.grouping.columns) : d.aliasName ∈ r.groupedNames ↔ d.grouped = true := by
  rw [DimensionColumn.aliasName, Request.groupedNames, List.mem_map_of_injective aliasFor_injective,
    ← h.keys_grouped_perm.mem_iff]
  exact Grouping.key_mem_filter_iff h.keys_nodup hd

theorem mem_rolledNames_iff (h : Resolved r settings p) {d : DimensionColumn}
    (hd : d ∈ p.grouping.columns) : d.aliasName ∈ r.rolledNames ↔ d.rollup = true := by
  rw [DimensionColumn.aliasName, Request.rolledNames, List.mem_map_of_injective aliasFor_injective]
  exact (h.rollup_iff hd).symm

theorem mem_totalledNames_iff (h : Resolved r settings p) {d : DimensionColumn}
    (hd : d ∈ p.grouping.columns) : d.aliasName ∈ r.totalledNames ↔ d.totals = true := by
  rw [DimensionColumn.aliasName, Request.totalledNames, List.mem_map_of_injective aliasFor_injective]
  exact (h.totals_iff hd).symm

/-- Only grouped columns are rolled up. -/
theorem grouped_of_rollup (h : Resolved r settings p) {d : DimensionColumn} (hd : d ∈ p.grouping.columns)
    (hrollup : d.rollup = true) : d.grouped = true := by
  have hheading := h.valid.rolled_grouped d.key ((h.rollup_iff hd).mp hrollup)
  have hkey : d.key ∈ (r.headings.filter Prod.snd).map Prod.fst :=
    List.mem_map_of_mem (List.mem_filter.mpr ⟨hheading, rfl⟩)
  exact (Grouping.key_mem_filter_iff h.keys_nodup hd).mp (h.keys_grouped_perm.mem_iff.mpr hkey)

/-! ## The base query -/

theorem filter_aliases_baseQuery (h : Resolved r settings p) (collapsed : List String) :
    (p.baseQuery collapsed).aliases.filter (· ∈ r.groupedNames) =
      p.grouping.grouped.map DimensionColumn.aliasName := by
  have hmetrics : ∀ a ∈ p.selection.metrics.map MetricColumn.aliasName,
      ¬ decide (a ∈ r.groupedNames) = true := by
    intro a ha hmem
    have hgrouped := h.groupedNames_perm.mem_iff.mpr (of_decide_eq_true hmem)
    exact List.disjoint_of_nodup_append h.base_aliases_nodup
      ((List.filter_sublist.map _).subset hgrouped) ha
  have hcolumns : (p.grouping.columns.map DimensionColumn.aliasName).filter (· ∈ r.groupedNames) =
      p.grouping.grouped.map DimensionColumn.aliasName :=
    DimensionColumn.filter_map_aliasName fun d hd => by
      rw [Bool.eq_iff_iff, ← h.mem_groupedNames_iff hd, decide_eq_true_iff]
  show ((p.items collapsed p.grouping.columns).filterMap Sql.SelectItem.aliasName).filter _ = _
  rw [aliases_items, List.filter_append, hcolumns, List.filter_eq_nil_iff.mpr hmetrics, List.append_nil]

theorem groupExprs_baseQuery (h : Resolved r settings p) (collapsed : List String) :
    (p.baseQuery collapsed).groupExprs =
      (p.grouping.grouped.filter (!·.rollup) ++ p.grouping.grouped.filter (·.rollup)).map
        (Grouping.aliasRef none) := by
  have hmem : ∀ d ∈ p.grouping.grouped, d ∈ p.grouping.columns := fun d hd => (List.mem_filter.mp hd).1
  have hrolled : p.grouping.grouped.filter (fun d => (Grouping.groupOf? p.grouping.groups d).isSome) =
      p.grouping.grouped.filter (·.rollup) :=
    List.filter_congr fun d hd => Bool.eq_iff_iff.mpr (h.isSome_groupOf?_iff (hmem d hd))
  have hplain : p.grouping.grouped.filter (fun d => (Grouping.groupOf? p.grouping.groups d).isNone) =
      p.grouping.grouped.filter (!·.rollup) := by
    refine List.filter_congr fun d hd => ?_
    rw [← Bool.eq_iff_iff.mpr (h.isSome_groupOf?_iff (hmem d hd)), Option.not_isSome]
  rw [← hrolled, ← hplain]
  exact Grouping.exprs_rollupEntries_eq h.gather_columns fun d hd hgroup =>
    h.grouped_of_rollup hd (Grouping.rollup_of_groupOf? hgroup)

/-- GROUP BY lists the columns that are not rolled up and then the others, each in the order of the plan. -/
theorem groupExprs_eq_names (h : Resolved r settings p) (collapsed : List String) :
    (p.baseQuery collapsed).groupExprs =
      ((p.grouping.grouped.map DimensionColumn.aliasName).filter (· ∉ r.rolledNames) ++
        (p.grouping.grouped.map DimensionColumn.aliasName).filter (· ∈ r.rolledNames)).map
          (.column none) := by
  have hmem : ∀ d ∈ p.grouping.grouped, d.aliasName ∈ r.rolledNames ↔ d.rollup = true := fun d hd =>
    h.mem_rolledNames_iff (List.mem_filter.mp hd).1
  have hplain : (p.grouping.grouped.map DimensionColumn.aliasName).filter (· ∉ r.rolledNames) =
      (p.grouping.grouped.filter (!·.rollup)).map DimensionColumn.aliasName :=
    DimensionColumn.filter_map_aliasName fun d hd => by simp [hmem d hd]
  have hrolled : (p.grouping.grouped.map DimensionColumn.aliasName).filter (· ∈ r.rolledNames) =
      (p.grouping.grouped.filter (·.rollup)).map DimensionColumn.aliasName :=
    DimensionColumn.filter_map_aliasName fun d hd => by simp [hmem d hd]
  rw [h.groupExprs_baseQuery, hplain, hrolled, ← List.map_append, List.map_map]
  rfl

/-- Among the grouped columns, a rolled up one stands before one that is not only if that one is totalled. -/
theorem pairwise_rolled_iff (h : Resolved r settings p) :
    ((p.grouping.grouped.map DimensionColumn.aliasName).Pairwise fun a b =>
      a ∈ r.rolledNames → b ∈ r.rolledNames) ↔
    (p.grouping.grouped.map DimensionColumn.aliasName).Pairwise fun a b =>
      a ∈ r.rolledNames → b ∈ r.totalledNames → b ∈ r.rolledNames := by
  constructor
  · exact List.Pairwise.imp fun hab ha _ => hab ha
  · rw [List.pairwise_map, List.pairwise_map]
    intro hpairs
    have hflagged : p.grouping.grouped.Pairwise fun a b => a.isFlagged = true → b.isFlagged = true :=
      h.pairwise_flagged.sublist List.filter_sublist
    refine (hpairs.and hflagged).imp_of_mem fun {a b} ha hb hab hrolled => ?_
    have ha' : a ∈ p.grouping.columns := (List.mem_filter.mp ha).1
    have hb' : b ∈ p.grouping.columns := (List.mem_filter.mp hb).1
    have hflag : a.isFlagged = true := Bool.or_eq_true_iff.mpr (.inr ((h.mem_rolledNames_iff ha').mp hrolled))
    rcases Bool.or_eq_true_iff.mp (hab.2 hflag) with htotals | hrollup
    · exact hab.1 hrolled ((h.mem_totalledNames_iff hb').mpr htotals)
    · exact (h.mem_rolledNames_iff hb').mpr hrollup

/-- The base query lists its grouped columns in the order of the plan. -/
theorem listsDimensions_baseQuery (h : Resolved r settings p) (collapsed : List String) :
    (p.baseQuery collapsed).ListsDimensions r (p.grouping.grouped.map DimensionColumn.aliasName) := by
  have horder : (p.baseQuery collapsed).orderExprs =
      (p.grouping.grouped.map DimensionColumn.aliasName).map (.column none) := by
    rw [Sql.Select.orderExprs, baseQuery, Grouping.orderEntries, List.map_map, List.map_map]
    rfl
  have hcolumn : Function.Injective (Sql.Expr.column none) := fun a b hab => by injection hab
  refine ⟨h.groupedNames_perm, h.filter_aliases_baseQuery collapsed, horder,
    h.groupExprs_eq_names collapsed, ?_⟩
  rw [h.groupExprs_eq_names, horder, hcolumn.list_map.eq_iff, ← h.pairwise_rolled_iff]
  simpa using filter_not_append_filter_eq_iff (p := fun a => decide (a ∈ r.rolledNames))

end Plan.Resolved

theorem Plan.base_query (p : Plan) (collapsed : List String) :
    (p.query collapsed).base = p.baseQuery collapsed := by
  unfold query
  split_ifs
  · rfl
  · rfl

/-! ## Statements -/

/-- In the base query of every statement of a compiled request, SELECT and ORDER BY list the grouped columns
in one order, and GROUP BY lists the rolled up ones after the others. It has the same order exactly if no
rolled up column comes before one that is totalled and not rolled up. -/
theorem statements_list_dimensions {r : Request} {settings : Settings} {c : Compilation}
    (h : Compilation.ofRequest r settings = .ok c) :
    ∃ names, ∀ s ∈ c.statements, s.query.base.ListsDimensions r names := by
  obtain ⟨p, hp, rfl⟩ := Compilation.ofRequest_eq_ok.mp h
  refine ⟨p.grouping.grouped.map DimensionColumn.aliasName, fun s hs => ?_⟩
  rw [Compilation.query_of_mem hs, p.base_query]
  exact hp.listsDimensions_baseQuery s.kind.collapsed

/-- Clicks by country and day: the country is rolled up, and the day after it is totalled. -/
def Request.countriesByDay : Request where
  table := "clicks"
  joins := []
  dimensions := [.plain .country, .totalled .day]
  metrics := [⟨.clicks⟩]
  filters := []
  references := []
  rollup := [.single "country"]
  limit := none
  offset := none

theorem statements_list_dimensions_countriesByDay :
    ∃ c, Compilation.ofRequest .countriesByDay .default = .ok c ∧ c.statements.length = 2 ∧
      ∃ names, ∀ s ∈ c.statements, s.query.base.ListsDimensions .countriesByDay names := by
  have hlength : (Compilation.ofRequest .countriesByDay .default).toOption.map
      (·.statements.length) = some 2 := by
    decide +kernel
  obtain ⟨c, hc, hlength⟩ := exists_of_map_toOption hlength
  exact ⟨c, hc, hlength, statements_list_dimensions hc⟩

/-- The country is selected and sorted by before the day, and grouped by after it. -/
theorem country_grouped_last_countriesByDay :
    ∃ c, Compilation.ofRequest .countriesByDay .default = .ok c ∧ c.statements.length = 2 ∧
      ∀ s ∈ c.statements, s.query.base.aliases = ["$country", "$day", "$clicks"] ∧
        s.query.base.orderExprs.flatMap Sql.Expr.columns = [(none, "$country"), (none, "$day")] ∧
        s.query.base.groupExprs.flatMap Sql.Expr.columns = [(none, "$day"), (none, "$country")] := by
  have hlists : (Compilation.ofRequest .countriesByDay .default).toOption.map (fun c =>
      decide (c.statements.length = 2 ∧
        ∀ s ∈ c.statements, s.query.base.aliases = ["$country", "$day", "$clicks"] ∧
          s.query.base.orderExprs.flatMap Sql.Expr.columns = [(none, "$country"), (none, "$day")] ∧
          s.query.base.groupExprs.flatMap Sql.Expr.columns = [(none, "$day"), (none, "$country")])) =
      some true := by
    decide +kernel
  obtain ⟨c, hc, hlists⟩ := exists_of_map_toOption hlists
  exact ⟨c, hc, of_decide_eq_true hlists⟩

end CubeSql
