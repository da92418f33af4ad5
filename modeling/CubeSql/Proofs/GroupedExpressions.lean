import CubeSql.Proofs.GroupingSets
import CubeSql.Proofs.Resolvable

/-!
# Grouping by expressions

The entries of GROUP BY are aliases of the select list. PostgreSQL does not group by aliases: every alias is
written as the expression that the query selects under it. Constants are left out, and so is what holds nothing
else: an argument of ROLLUP, or ROLLUP itself.
-/

namespace CubeSql

theorem filterMap_eq_of_forall₂ {α β γ : Type} {R : α → β → Prop} {f : α → Option γ} {g : β → Option γ}
    {as : List α} {bs : List β} (h : List.Forall₂ R as bs) (hfg : ∀ a b, R a b → f a = g b) :
    as.filterMap f = bs.filterMap g := by
  induction h with
  | nil => rfl
  | cons hab _ ih => rw [List.filterMap_cons, List.filterMap_cons, hfg _ _ hab, ih]

namespace Sql

/-! ## Constants -/

/-- The arguments of ROLLUP without constants, as far as anything is left of them. -/
def argumentsWithoutConstants (args : List (List Expr)) : List (List Expr) :=
  (args.map (List.filterMap term?)).filter (!·.isEmpty)

/-- The entry without constants, if anything is left of it. -/
def GroupItem.withoutConstants? : GroupItem → Option GroupItem
  | .expr e => (term? e).map .expr
  | .rollup args =>
    match argumentsWithoutConstants args with
    | [] => none
    | left => some (.rollup left)

/-- What is left of a ROLLUP has arguments, and these have members. -/
theorem GroupItem.ne_nil_of_withoutConstants? {g : GroupItem} {args : List (List Expr)}
    (h : g.withoutConstants? = some (.rollup args)) : args ≠ [] ∧ ∀ members ∈ args, members ≠ [] := by
  cases g with
  | expr e =>
    obtain ⟨_, -, hexpr⟩ := Option.map_eq_some_iff.mp h
    cases hexpr
  | rollup given =>
    have hleft : argumentsWithoutConstants given = args ∧ args ≠ [] := by
      rw [withoutConstants?] at h
      split at h
      · cases h
      · next hne =>
        cases h
        exact ⟨rfl, hne⟩
    refine ⟨hleft.2, fun members hm hnil => ?_⟩
    rw [← hleft.1] at hm
    have hkept := (List.mem_filter.mp hm).2
    rw [hnil] at hkept
    cases hkept

/-- An argument stands in parentheses exactly if it has at least two members. -/
theorem argumentText_eq (s : Spelling) {members : List Expr} (h : members ≠ []) :
    argumentText s members = if 2 ≤ members.length
      then "(" ++ ", ".intercalate (members.map (Expr.text s)) ++ ")"
      else ", ".intercalate (members.map (Expr.text s)) := by
  match members with
  | [] => exact absurd rfl h
  | [_] => rfl
  | _ :: _ :: _ => exact (if_pos (by simp)).symm

namespace Query

variable {q : Query}

/-! ## Aliases -/

/-- The entry is an alias under which the query selects the expression and nothing else. -/
def Names (q : Query) (entry e : Expr) : Prop := ∃ a, entry = .column none a ∧ q.projected a = [e]

/-- The second entry has the expressions that the query selects under the aliases of the first. -/
inductive NamesItem (q : Query) : GroupItem → GroupItem → Prop where
  /-- An expression for an alias. -/
  | expr {entry e : Expr} (h : q.Names entry e) : NamesItem q (.expr entry) (.expr e)
  /-- As many expressions as aliases in each of as many arguments. -/
  | rollup {args named : List (List Expr)} (h : List.Forall₂ (List.Forall₂ q.Names) args named) :
    NamesItem q (.rollup args) (.rollup named)

/-- The first item under an alias is what is selected under it. -/
theorem Names.groupedTerm?_eq {entry e : Expr} (h : q.Names entry e) :
    groupedTerm? q.items entry = term? e := by
  obtain ⟨a, rfl, hprojected⟩ := h
  obtain ⟨item, hitem, rfl⟩ := List.map_eq_singleton_iff.mp hprojected
  have hfind : SelectItem.find? q.items a = some item := by
    rw [SelectItem.find?, ← List.head?_filter, hitem]
    rfl
  simp only [groupedTerm?, groupedExpr, hfind, term?]

/-- Where nothing is grouped by its alias, an entry is written as what it names, without constants. -/
theorem NamesItem.written?_eq {s : Spelling} (hs : s.groupsByAlias = false) {g named : GroupItem}
    (h : q.NamesItem g named) : g.written? s q.items = named.withoutConstants? := by
  cases h with
  | expr h => rw [GroupItem.written?, groupTerm?_of_expr hs, h.groupedTerm?_eq, GroupItem.withoutConstants?]
  | @rollup args named h =>
    have hmembers : ∀ members es, List.Forall₂ q.Names members es →
        members.filterMap (groupedTerm? q.items) = es.filterMap term? := by
      intro members es hes
      exact filterMap_eq_of_forall₂ hes fun _ _ => Names.groupedTerm?_eq
    rw [GroupItem.written?, groupTerm?_of_expr hs, map_eq_of_forall₂ h hmembers]
    rfl

theorem writtenGroups_of_names {s : Spelling} (hs : s.groupsByAlias = false) {named : List GroupItem}
    (h : List.Forall₂ q.NamesItem q.groups named) :
    q.writtenGroups s = named.filterMap GroupItem.withoutConstants? :=
  filterMap_eq_of_forall₂ h fun _ _ hitem => hitem.written?_eq hs

theorem exists_namesItem {g : GroupItem} (h : ∀ entry ∈ g.exprs, ∃ e, q.Names entry e) :
    ∃ named, q.NamesItem g named := by
  cases g with
  | expr entry =>
    obtain ⟨e, he⟩ := h entry (List.mem_singleton_self entry)
    exact ⟨_, .expr he⟩
  | rollup args =>
    have hargs : ∀ members ∈ args, ∃ es, List.Forall₂ q.Names members es := by
      intro members hm
      exact exists_forall₂_iff.mpr fun entry he => h entry (List.mem_flatten_of_mem hm he)
    obtain ⟨named, hnamed⟩ := exists_forall₂_iff.mpr hargs
    exact ⟨_, .rollup hnamed⟩

theorem exists_named_groups (h : ∀ entry ∈ q.groupExprs, ∃ e, q.Names entry e) :
    ∃ named, List.Forall₂ q.NamesItem q.groups named :=
  exists_forall₂_iff.mpr fun _ hg =>
    exists_namesItem fun entry he => h entry (List.mem_flatMap.mpr ⟨_, hg, he⟩)

/-- For PostgreSQL the query groups by what it selects under the aliases that it names. -/
structure GroupsByExpression (q : Query) : Prop where
  /-- The entries of the query are at most one ROLLUP after others, and it has no empty argument. -/
  rollup : q.SingleRollup
  /-- Written are the expressions that the entries name, in the same order and in the same arguments of ROLLUP,
  without the constants and without what is left empty by that. -/
  written : ∃ named, List.Forall₂ q.NamesItem q.groups named ∧
    q.WritesGroups .postgres (named.filterMap GroupItem.withoutConstants?)
  /-- Every ROLLUP has arguments and these have members, in parentheses if there are at least two. -/
  parentheses : ∀ args, .rollup args ∈ q.writtenGroups .postgres → args ≠ [] ∧ ∀ members ∈ args,
    members ≠ [] ∧ argumentText .postgres members = if 2 ≤ members.length
      then "(" ++ ", ".intercalate (members.map (Expr.text .postgres)) ++ ")"
      else ", ".intercalate (members.map (Expr.text .postgres))

theorem groupsByExpression (hrollup : q.SingleRollup) (h : ∀ entry ∈ q.groupExprs, ∃ e, q.Names entry e) :
    q.GroupsByExpression := by
  obtain ⟨named, hnamed⟩ := exists_named_groups h
  have hwritten : q.writtenGroups .postgres = named.filterMap GroupItem.withoutConstants? :=
    writtenGroups_of_names rfl hnamed
  refine ⟨hrollup, ⟨named, hnamed, hwritten ▸ q.writesGroups .postgres⟩, fun args hargs => ?_⟩
  rw [hwritten] at hargs
  obtain ⟨g, -, hg⟩ := List.mem_filterMap.mp hargs
  obtain ⟨hne, hmembers⟩ := GroupItem.ne_nil_of_withoutConstants? hg
  exact ⟨hne, fun members hm => ⟨hmembers members hm, argumentText_eq _ (hmembers members hm)⟩⟩

end Query

end Sql

/-! ## The queries of a plan -/

namespace Plan

variable {r : Request} {settings : Settings} {p : Plan}

namespace Resolved

theorem groupsByExpression_baseQuery (h : Resolved r settings p) (collapsed : List String) :
    Sql.Query.GroupsByExpression (p.baseQuery collapsed) := by
  refine Sql.Query.groupsByExpression (p.singleRollup_baseQuery collapsed) fun entry hentry => ?_
  have hgrouped := p.grouping.exprs_rollupEntries.mem_iff.mp hentry
  obtain ⟨d, hd, rfl⟩ := List.mem_map.mp hgrouped
  exact ⟨_, _, rfl, h.projected_baseQuery (List.mem_filter.mp hd).1 collapsed⟩

theorem groupsByExpression_comparisonQuery (h : Resolved r settings p) (collapsed : List String)
    (c : Comparison) : Sql.Query.GroupsByExpression (p.comparisonQuery collapsed c) := by
  refine Sql.Query.groupsByExpression (p.singleRollup_comparisonQuery collapsed c) fun entry hentry => ?_
  have hgrouped : entry ∈ p.declared.grouped.map (Grouping.aliasRef none) :=
    Grouping.exprs_plainEntries p.declared.grouped ▸ hentry
  obtain ⟨d, hd, rfl⟩ := List.mem_map.mp hgrouped
  have hdeclared : d ∈ p.selection.dimensions := (mem_declared d).mp (List.mem_filter.mp hd).1
  exact ⟨_, _, rfl, h.projected_comparisonQuery hdeclared collapsed c⟩

theorem groupsByExpression_levels (h : Resolved r settings p) (collapsed : List String) :
    ∀ q ∈ Sql.Query.levels (p.query collapsed), Sql.Query.GroupsByExpression q := by
  intro q hq
  rcases h.mem_levels_query hq with rfl | ⟨c, -, rfl⟩ | rfl
  · exact h.groupsByExpression_baseQuery collapsed
  · exact h.groupsByExpression_comparisonQuery collapsed c
  · exact Sql.Query.groupsByExpression (p.singleRollup_comparedQuery collapsed) nofun

end Resolved

end Plan

/-! ## Statements -/

/-- In every query of every statement of a compiled request, at every depth, PostgreSQL groups by the
expressions that the query selects under the aliases of its entries, constants left out. -/
theorem postgres_groups_by_expression {r : Request} {settings : Settings} {c : Compilation}
    (h : Compilation.ofRequest r settings = .ok c) :
    ∀ s ∈ c.statements, ∀ q ∈ Sql.Query.levels s.query, Sql.Query.GroupsByExpression q := by
  obtain ⟨p, hp, rfl⟩ := Compilation.ofRequest_eq_ok.mp h
  intro s hs
  rw [Compilation.query_of_mem hs]
  exact hp.groupsByExpression_levels _

/-- The texts of the entries of GROUP BY, as they are written for the outer query of each statement. -/
def Compilation.groupTexts (d : Sql.Dialect) (c : Compilation) : List (List String) :=
  c.statements.map fun s =>
    (Sql.Query.writtenGroups d.spelling s.query).map (Sql.GroupItem.text d.spelling)

/-- The source is a constant and leaves its argument, and the day, a constant in its totals, leaves with its
own. -/
theorem postgres_groups_by_expression_rolledUpClicks :
    ∃ c, Compilation.ofRequest .rolledUpClicks .default = .ok c ∧
      c.groupTexts .postgres = [["ROLLUP(\"country\", \"day\")"], ["ROLLUP(\"country\")"]] ∧
      ∀ s ∈ c.statements, ∀ q ∈ Sql.Query.levels s.query, Sql.Query.GroupsByExpression q := by
  have htexts : (Compilation.ofRequest .rolledUpClicks .default).toOption.map
      (Compilation.groupTexts .postgres) =
        some [["ROLLUP(\"country\", \"day\")"], ["ROLLUP(\"country\")"]] := by
    decide +kernel
  obtain ⟨c, hc, htexts⟩ := exists_of_map_toOption htexts
  exact ⟨c, hc, htexts, postgres_groups_by_expression hc⟩

end CubeSql
