import CubeSql.Proofs.DimensionOrder

/-!
# Rows of totals

A row is taken for a total if one of its dimensions holds the totals marker, or is rolled up and absent. What
the tables hold is not fixed here, so a query may return any row that has what its select list says by itself:
a constant text is that text, and a column of a query that is selected from has the value that it has there.
Every such row of a totals statement is taken for a total. A row that is no total is taken for one as well
if a dimension that is never collapsed holds the marker by chance.
-/

namespace CubeSql

/-- A row has every value that it lists, if it lists none of its columns twice. -/
theorem Row.lookup_of_mem {row : Row} (hn : (row.map Prod.fst).Nodup) {a : String} {v : Value}
    (h : (a, v) ∈ row) : row.lookup a = some v := by
  obtain ⟨front, rest, rfl⟩ := List.append_of_mem h
  rw [List.map_append, List.map_cons] at hn
  refine List.lookup_eq_some_iff.mpr ⟨front, rest, rfl, fun p hp => ?_⟩
  rw [bne_iff_ne]
  rintro rfl
  exact List.disjoint_of_nodup_append hn (List.mem_map_of_mem hp) List.mem_cons_self

/-! ## What a query may return -/

namespace Sql

/-- The query rolls up the column of an alias, which is then absent in its subtotals. -/
def Select.RollsUp {σ : Type} (q : Select σ) (a : String) : Prop :=
  ∃ args, GroupItem.rollup args ∈ q.groups ∧ Expr.column none a ∈ args.flatten

namespace Query

/-- Under the alias the row has the value, or nothing if it is a subtotal. -/
def Shows (q : Query) (row : Row) (a : String) (v : Value) : Prop :=
  row.lookup a = some v ∨ q.RollsUp a ∧ row.lookup a = some .null

/-- The row has every constant text that the query selects. -/
def ShowsTexts (q : Query) (row : Row) : Prop :=
  ∀ i ∈ q.items, ∀ a s, i.aliasName = some a → i.expr = .literal (.text s) → q.Shows row a (.text s)

/-- The row has every column that the query selects of the rows under an alias, as the found one has it. -/
def ShowsColumns (q : Query) (t : String) (found row : Row) : Prop :=
  ∀ i ∈ q.items, ∀ a b v, i.aliasName = some a → i.expr = .column (some t) b → found.lookup b = some v →
    q.Shows row a v

/-- A row that a query may return, whatever is in the tables. -/
inductive MayReturn : Query → Row → Prop
  /-- Of a table nothing is known. -/
  | ofTable {q : Query} {row : Row} {name : String} {t : Option String}
    (source : q.source = .table name t) (texts : q.ShowsTexts row) : MayReturn q row
  /-- A query that is selected from may return the row that is found there. -/
  | ofQuery {q inner : Query} {found row : Row} {t : String} (source : q.source = .derived inner t)
    (inside : MayReturn inner found) (texts : q.ShowsTexts row) (columns : q.ShowsColumns t found row) :
    MayReturn q row
  /-- A joined row that meets none stands without any. -/
  | unmatched {q : Query} {row : Row} (outer : ∃ j ∈ q.joins, j.kind = .right ∨ j.kind = .full)
    (texts : q.ShowsTexts row) : MayReturn q row

theorem MayReturn.showsTexts {q : Query} {row : Row} (h : q.MayReturn row) : q.ShowsTexts row := by
  cases h with
  | ofTable _ texts => exact texts
  | ofQuery _ _ texts _ => exact texts
  | unmatched _ texts => exact texts

end Query

/-! ## A row of a query -/

/-- The value of a constant, or of a column in a row; other expressions are taken to be absent. -/
def Expr.valueIn (found : Row) : Expr → Value
  | .literal v => v
  | .column _ b => (found.lookup b).getD .null
  | _ => .null

namespace Query

/-- The row with the values that the select list has beside the found row. -/
def rowOf (q : Query) (found : Row) : Row :=
  q.items.filterMap fun i => i.aliasName.map fun a => (a, i.expr.valueIn found)

theorem map_fst_rowOf (q : Query) (found : Row) : (q.rowOf found).map Prod.fst = q.aliases := by
  have hfst : ∀ i : SelectItem,
      (i.aliasName.map fun a => (a, i.expr.valueIn found)).map Prod.fst = i.aliasName := by
    intro i
    cases i.aliasName <;> rfl
  rw [rowOf, List.map_filterMap, funext hfst]
  rfl

theorem lookup_rowOf {q : Query} (hn : q.aliases.Nodup) (found : Row) {i : SelectItem} (hi : i ∈ q.items)
    {a : String} (ha : i.aliasName = some a) : (q.rowOf found).lookup a = some (i.expr.valueIn found) := by
  refine Row.lookup_of_mem ?_ (List.mem_filterMap.mpr ⟨i, hi, ?_⟩)
  · rwa [map_fst_rowOf]
  · rw [ha]
    rfl

theorem showsTexts_rowOf {q : Query} (hn : q.aliases.Nodup) (found : Row) :
    q.ShowsTexts (q.rowOf found) := by
  intro i hi a s ha hexpr
  rw [Shows, lookup_rowOf hn found hi ha, hexpr]
  exact .inl rfl

theorem showsColumns_rowOf {q : Query} (hn : q.aliases.Nodup) (t : String) (found : Row) :
    q.ShowsColumns t found (q.rowOf found) := by
  intro i hi a b v ha hexpr hfound
  rw [Shows, lookup_rowOf hn found hi ha, hexpr, Expr.valueIn, hfound]
  exact .inl rfl

end Query

end Sql

/-! ## Collapsed dimensions -/

theorem Sql.eq_of_rollup_mem {args args' : List (List Expr)}
    (h : GroupItem.rollup args ∈ rollupOf args') : args = args' := by
  cases args' with
  | nil => cases h
  | cons arg args' =>
    cases List.mem_singleton.mp h
    rfl

/-- A comparison joins no rows that stand without a base row. -/
theorem ReferenceJoin.keeps_source (j : ReferenceJoin) : ¬ (j.kind = .right ∨ j.kind = .full) := by
  cases j <;> decide

namespace Plan

variable {r : Request} {settings : Settings} {p : Plan}

theorem map_aliases_query (p : Plan) (collapsed : List String) :
    (p.query collapsed).aliases = p.outputAliases :=
  filterMap_eq_of_map_eq (p.map_aliasName_query collapsed)

namespace Resolved

/-- Every statement may return a row. -/
theorem exists_mayReturn (h : Resolved r settings p) (collapsed : List String) :
    ∃ row, (p.query collapsed).MayReturn row := by
  have hbase := h.aliases_baseQuery_nodup collapsed
  have hinside : (p.baseQuery collapsed).MayReturn ((p.baseQuery collapsed).rowOf []) :=
    .ofTable rfl (Sql.Query.showsTexts_rowOf hbase [])
  have hn : (p.query collapsed).aliases.Nodup := by
    rw [map_aliases_query]
    exact h.aliases_nodup
  unfold query at hn ⊢
  split_ifs at hn ⊢
  · exact ⟨_, hinside⟩
  · exact ⟨_, .ofQuery rfl hinside (Sql.Query.showsTexts_rowOf hn _)
      (Sql.Query.showsColumns_rowOf hn baseAlias _)⟩

theorem rollup_of_rollsUp (h : Resolved r settings p) {d : DimensionColumn}
    (hd : d ∈ p.grouping.columns) {collapsed : List String}
    (hrolls : (p.baseQuery collapsed).RollsUp d.aliasName) : d.rollup = true := by
  obtain ⟨args, hargs, hmem⟩ := hrolls
  have hentry : Sql.GroupItem.rollup args ∈ p.grouping.rollupEntries := hargs
  rw [Grouping.rollupEntries_eq] at hentry
  rcases List.mem_append.mp hentry with hplain | hrollup
  · obtain ⟨_, -, heq⟩ := List.mem_map.mp hplain
    cases heq
  · rw [Sql.eq_of_rollup_mem hrollup, ← List.map_flatten] at hmem
    obtain ⟨m, hm, heq⟩ := List.mem_map.mp hmem
    obtain ⟨hgrouped, hgroup⟩ := List.mem_filter.mp ((Grouping.gather_perm _ _).mem_iff.mp hm)
    have hname : m.aliasName = d.aliasName := by injection heq
    have hrolled := (h.mem_rolledNames_iff (List.mem_filter.mp hgrouped).1).mpr
      (Grouping.rollup_of_groupOf? hgroup)
    rw [hname] at hrolled
    exact (h.mem_rolledNames_iff hd).mp hrolled

/-- In a row of the base query a collapsed dimension holds the marker, or it is absent and rolled up. -/
theorem lookup_collapsed_baseQuery (h : Resolved r settings p) {d : DimensionColumn}
    (hd : d ∈ p.grouping.columns) {collapsed : List String} (hkey : d.key ∈ collapsed) {row : Row}
    (hrow : (p.baseQuery collapsed).MayReturn row) :
    row.lookup d.aliasName = some (.text settings.totalsMarker) ∨
      d.rollup = true ∧ row.lookup d.aliasName = some .null := by
  have hitem : p.dimensionItem collapsed d ∈ (p.baseQuery collapsed).items :=
    List.mem_append_left _ (List.mem_map_of_mem hd)
  have hexpr : (p.dimensionItem collapsed d).expr = .literal (.text settings.totalsMarker) := by
    rw [dimensionItem, if_pos hkey, h.settings]
  rcases hrow.showsTexts _ hitem _ _ rfl hexpr with hmarker | ⟨hrolls, hnull⟩
  · exact .inl hmarker
  · exact .inr ⟨h.rollup_of_rollsUp hd hrolls, hnull⟩

/-- The query around the comparisons selects it again. -/
theorem lookup_collapsed (h : Resolved r settings p) {d : DimensionColumn}
    (hd : d ∈ p.grouping.columns) {collapsed : List String} (hkey : d.key ∈ collapsed) {row : Row}
    (hrow : (p.query collapsed).MayReturn row) :
    row.lookup d.aliasName = some (.text settings.totalsMarker) ∨
      d.rollup = true ∧ row.lookup d.aliasName = some .null := by
  unfold query at hrow
  split_ifs at hrow
  · exact h.lookup_collapsed_baseQuery hd hkey hrow
  · cases hrow with
    | ofTable source _ => cases source
    | unmatched outer _ =>
      obtain ⟨j, hj, hkind⟩ := outer
      obtain ⟨c, -, rfl⟩ := List.mem_map.mp hj
      exact absurd hkind (p.settings.referenceJoin.keeps_source)
    | @ofQuery _ _ found _ _ source inside _ columns =>
      cases source
      have hselected : d.aliasName ∈ (p.baseQuery collapsed).aliases :=
        List.mem_filterMap.mpr ⟨_, List.mem_append_left _ (List.mem_map_of_mem hd), rfl⟩
      have hitem : (⟨.column (some baseAlias) d.aliasName, some d.aliasName⟩ : Sql.SelectItem) ∈
          (p.comparedQuery collapsed).items := by
        refine List.mem_append_left _ ?_
        rw [filterMap_baseItem_eq]
        exact List.mem_map_of_mem hselected
      have hshown : ∀ v, found.lookup d.aliasName = some v → row.lookup d.aliasName = some v := by
        intro v hv
        rcases columns _ hitem _ _ v rfl rfl hv with hsame | ⟨⟨_, hrolled, _⟩, _⟩
        · exact hsame
        · cases hrolled
      rcases h.lookup_collapsed_baseQuery hd hkey inside with hmarker | ⟨hrollup, hnull⟩
      · exact .inl (hshown _ hmarker)
      · exact .inr ⟨hrollup, hshown _ hnull⟩

end Resolved

end Plan

namespace Compilation

variable {r : Request} {settings : Settings} {c : Compilation}

/-- The key is that of a totalled dimension: some totals statement collapses it. -/
def IsTotalled (c : Compilation) (key : String) : Prop := ∃ s ∈ c.totals, key ∈ s.kind.collapsed

/-! ## Rows that are taken for totals -/

theorem marksTotal_iff {row : Row} {key : String} : c.marksTotal row key = true ↔
    row.lookup (aliasFor key) = some (.text c.totalsMarker) ∨
      key ∈ c.rollupKeys ∧ row.lookup (aliasFor key) = some .null := by
  unfold marksTotal
  split
  · rename_i hlookup
    simp [hlookup]
  · rename_i s hlookup
    simp [hlookup]
  · rename_i hnull htext
    simp only [Bool.false_eq_true, false_iff, not_or, not_and]
    exact ⟨htext _, fun _ => hnull⟩

theorem isTotalsRow_iff {row : Row} : c.isTotalsRow row = true ↔ ∃ key ∈ c.dimensionKeys,
    row.lookup (aliasFor key) = some (.text c.totalsMarker) ∨
      key ∈ c.rollupKeys ∧ row.lookup (aliasFor key) = some .null := by
  rw [isTotalsRow, List.any_eq_true]
  simp only [marksTotal_iff]

theorem mem_collapses {keys totalled : List String} (h : keys ∈ collapses totalled) :
    keys ≠ [] ∧ keys <:+ totalled := by
  induction totalled with
  | nil => cases h
  | cons key totalled ih =>
    rcases List.mem_cons.mp h with rfl | h
    · exact ⟨List.cons_ne_nil _ _, List.suffix_refl _⟩
    · exact ⟨(ih h).1, (ih h).2.trans (List.suffix_cons _ _)⟩

/-- Every statement of a compiled request may return a row. -/
theorem statements_may_return (h : ofRequest r settings = .ok c) :
    ∀ s ∈ c.statements, ∃ row, s.query.MayReturn row := by
  obtain ⟨p, hp, rfl⟩ := ofRequest_eq_ok.mp h
  intro s hs
  rw [query_of_mem hs]
  exact hp.exists_mayReturn s.kind.collapsed

end Compilation

/-- Every row that a totals statement of a compiled request may return is taken for a total. -/
theorem totals_rows_recognized {r : Request} {settings : Settings} {c : Compilation}
    (h : Compilation.ofRequest r settings = .ok c) :
    ∀ s ∈ c.totals, ∀ row, s.query.MayReturn row → c.isTotalsRow row = true := by
  obtain ⟨p, hp, rfl⟩ := Compilation.ofRequest_eq_ok.mp h
  intro s hs row hrow
  obtain ⟨keys, hkeys, rfl⟩ := List.mem_map.mp hs
  obtain ⟨hne, hsuffix⟩ := Compilation.mem_collapses hkeys
  obtain ⟨key, hkey⟩ := List.exists_mem_of_ne_nil keys hne
  obtain ⟨d, hd, rfl⟩ := List.mem_map.mp (hsuffix.subset hkey)
  have hcolumn : d ∈ p.grouping.columns := (List.mem_filter.mp hd).1
  refine Compilation.isTotalsRow_iff.mpr ⟨d.key, List.mem_map_of_mem hcolumn, ?_⟩
  rcases hp.lookup_collapsed hcolumn hkey hrow with hmarker | ⟨hrollup, hnull⟩
  · exact .inl hmarker
  · exact .inr ⟨List.mem_map_of_mem (List.mem_filter.mpr ⟨hcolumn, hrollup⟩), hnull⟩

theorem totals_rows_recognized_clicksByDay :
    ∃ c, Compilation.ofRequest .clicksByDay .default = .ok c ∧ c.totals.length = 2 ∧
      ∀ s ∈ c.totals, ∃ row, s.query.MayReturn row ∧ c.isTotalsRow row = true := by
  have hlength : (Compilation.ofRequest .clicksByDay .default).toOption.map (·.totals.length) = some 2 := by
    decide +kernel
  obtain ⟨c, hc, hlength⟩ := exists_of_map_toOption hlength
  refine ⟨c, hc, hlength, fun s hs => ?_⟩
  obtain ⟨row, hrow⟩ := Compilation.statements_may_return hc s (List.mem_of_mem_tail hs)
  exact ⟨row, hrow, totals_rows_recognized hc s hs row hrow⟩

/-! ## Other rows -/

theorem Compilation.isTotalled_iff {r : Request} {settings : Settings} {c : Compilation}
    (h : ofRequest r settings = .ok c) {key : String} : c.IsTotalled key ↔ key ∈ r.totalsKeys := by
  obtain ⟨p, hp, rfl⟩ := ofRequest_eq_ok.mp h
  rw [← hp.totalsKeys_perm.mem_iff]
  constructor
  · rintro ⟨s, hs, hkey⟩
    obtain ⟨keys, hkeys, rfl⟩ := List.mem_map.mp hs
    exact (mem_collapses hkeys).2.subset hkey
  · intro hkey
    -- The first totals statement collapses all totalled dimensions.
    have hfirst : p.grouping.totalsKeys ∈ collapses p.grouping.totalsKeys := by
      cases hkeys : p.grouping.totalsKeys with
      | nil =>
        rw [hkeys] at hkey
        cases hkey
      | cons first rest => exact List.mem_cons_self
    exact ⟨totalsStatement p p.grouping.totalsKeys, List.mem_map_of_mem hfirst, hkey⟩

/-- A row in which nothing that is rolled up is absent and no totalled dimension holds the totals marker is
taken for a total exactly if another dimension holds the marker. -/
theorem detail_row_taken_for_total_iff {r : Request} {settings : Settings} {c : Compilation}
    (h : Compilation.ofRequest r settings = .ok c) {row : Row}
    (hpresent : ∀ key ∈ c.rollupKeys, row.lookup (aliasFor key) ≠ some .null)
    (hunmarked : ∀ key, c.IsTotalled key → row.lookup (aliasFor key) ≠ some (.text c.totalsMarker)) :
    c.isTotalsRow row = true ↔ ∃ key ∈ c.dimensionKeys, key ∉ r.totalsKeys ∧
      row.lookup (aliasFor key) = some (.text c.totalsMarker) := by
  rw [Compilation.isTotalsRow_iff]
  constructor
  · rintro ⟨key, hkey, hmarker | ⟨hrollup, hnull⟩⟩
    · exact ⟨key, hkey, fun htotalled => hunmarked key ((Compilation.isTotalled_iff h).mpr htotalled) hmarker,
        hmarker⟩
    · exact absurd hnull (hpresent key hrollup)
  · rintro ⟨key, hkey, -, hmarker⟩
    exact ⟨key, hkey, .inl hmarker⟩

/-- A day's clicks from a country. -/
def Row.clicksFrom (country : String) : Row :=
  [("$country", .text country), ("$day", .text "2024-01-01"), ("$clicks", .int 3)]

/-- Neither is the country absent in the row, nor does the day hold the marker. -/
theorem Row.clicksFrom_detail {c : Compilation}
    (h : Compilation.ofRequest .countriesByDay .default = .ok c) (country : String) :
    (∀ key ∈ c.rollupKeys, (clicksFrom country).lookup (aliasFor key) ≠ some .null) ∧
      ∀ key, c.IsTotalled key → (clicksFrom country).lookup (aliasFor key) ≠ some (.text c.totalsMarker) := by
  obtain ⟨p, hp, rfl⟩ := Compilation.ofRequest_eq_ok.mp h
  constructor
  · intro key hkey
    have hcountry : key = "country" := List.mem_singleton.mp (hp.rollupKeys_perm.mem_iff.mp hkey)
    subst hcountry
    show some (Value.text country) ≠ some .null
    nofun
  · intro key htotalled
    have hday : key = "day" := List.mem_singleton.mp ((Compilation.isTotalled_iff h).mp htotalled)
    subst hday
    show some (Value.text "2024-01-01") ≠ some (.text "_ROLLUP_TOTALS_")
    simp

theorem detail_row_taken_for_total_iff_countriesByDay :
    ∃ c, Compilation.ofRequest .countriesByDay .default = .ok c ∧
      c.isTotalsRow (.clicksFrom "France") = false := by
  have hkeys : (Compilation.ofRequest .countriesByDay .default).toOption.map
      (fun c => (c.dimensionKeys, c.totalsMarker)) = some (["country", "day"], "_ROLLUP_TOTALS_") := by
    decide +kernel
  obtain ⟨c, hc, hkeys⟩ := exists_of_map_toOption hkeys
  obtain ⟨hdimensions, hmarker⟩ := Prod.mk.inj hkeys
  obtain ⟨hpresent, hunmarked⟩ := Row.clicksFrom_detail hc "France"
  refine ⟨c, hc, Bool.eq_false_iff.mpr fun htotal => ?_⟩
  obtain ⟨key, hkey, hplain, hlookup⟩ := (detail_row_taken_for_total_iff hc hpresent hunmarked).mp htotal
  rw [hmarker] at hlookup
  rw [hdimensions] at hkey
  rcases List.mem_cons.mp hkey with rfl | hkey
  · have hsame : some (Value.text "France") = some (.text "_ROLLUP_TOTALS_") := hlookup
    simp at hsame
  · cases List.mem_singleton.mp hkey
    exact hplain (List.mem_singleton_self "day")

/-- A country by the name of the totals marker makes a total of a row that is none. -/
theorem marked_country_taken_for_total_countriesByDay :
    ∃ c, Compilation.ofRequest .countriesByDay .default = .ok c ∧
      (∀ key ∈ c.rollupKeys, (Row.clicksFrom c.totalsMarker).lookup (aliasFor key) ≠ some .null) ∧
      (∀ key, c.IsTotalled key →
        (Row.clicksFrom c.totalsMarker).lookup (aliasFor key) ≠ some (.text c.totalsMarker)) ∧
      c.isTotalsRow (.clicksFrom c.totalsMarker) = true := by
  have htaken : (Compilation.ofRequest .countriesByDay .default).toOption.map
      (fun c => c.isTotalsRow (.clicksFrom c.totalsMarker)) = some true := by
    decide +kernel
  obtain ⟨c, hc, htaken⟩ := exists_of_map_toOption htaken
  obtain ⟨hpresent, hunmarked⟩ := Row.clicksFrom_detail hc c.totalsMarker
  exact ⟨c, hc, hpresent, hunmarked, htaken⟩

end CubeSql
