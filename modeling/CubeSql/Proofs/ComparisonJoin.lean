import CubeSql.Proofs.Interpretation
import CubeSql.Proofs.Plan
import Mathlib.Data.Set.Pairwise.Basic

/-!
# The join of a comparison

The query of a comparison groups by the declared dimensions, and its join equates each of them once with
the base query's column of the same alias. Rows that differ in a declared dimension therefore never meet
the same base row, and joining a comparison multiplies no rows.
-/

namespace CubeSql

universe u

theorem perm_cons_filter_ne {columns : List DimensionColumn} {d : DimensionColumn}
    (hn : (columns.map DimensionColumn.key).Nodup) (hd : d ∈ columns) :
    (d :: columns.filter (·.key != d.key)).Perm columns := by
  induction columns with
  | nil => cases hd
  | cons c cs ih =>
    obtain ⟨hc, hcs⟩ := List.nodup_cons.mp hn
    rcases List.mem_cons.mp hd with rfl | hd
    · have hall : ∀ a ∈ cs, (a.key != d.key) = true := by
        intro a ha
        rw [bne_iff_ne]
        rintro heq
        exact hc (heq ▸ List.mem_map_of_mem ha)
      rw [List.filter_cons_of_neg (by simp), List.filter_eq_self.mpr hall]
    · have hne : c.key ≠ d.key := by
        intro heq
        exact hc (heq ▸ List.mem_map_of_mem hd)
      rw [List.filter_cons_of_pos (by simpa using hne)]
      exact (List.Perm.swap c d _).trans ((ih hcs hd).cons c)

/-! ## Conditions -/

namespace Reference

/-- The span of time that a reference looks back, as an expression. -/
def span (x : Reference) : Sql.Expr := .interval x.kind.interval.1 x.kind.interval.2

/-- The compared column of an alias as a join equates it: less the span of time for the reference's own
dimension, unless that is collapsed. -/
def comparedColumn (x : Reference) (collapsed : List String) (aliasName : String) : Sql.Expr :=
  let compared := Sql.Expr.column (some x.name) aliasName
  if aliasName = aliasFor x.dimension ∧ x.dimension ∉ collapsed then compared.minus x.span else compared

/-- The condition under which the base query and a comparison agree on the column of an alias. -/
def meets (x : Reference) (collapsed : List String) (aliasName : String) : Sql.Expr :=
  .eq (.column (some Plan.baseAlias) aliasName) (x.comparedColumn collapsed aliasName)

/-- The join is on one equality for every column that its query groups by, and these are the columns of the
request's dimensions. -/
structure JoinedOn (r : Request) (collapsed : List String) (x : Reference) (j : Sql.QueryJoin)
    (sub : Sql.Query) (aliases : List String) : Prop where
  source : j.source = .derived sub x.name
  groups : sub.groups = aliases.map fun a => .expr (.column none a)
  nodup : aliases.Nodup
  dimensions : aliases.Perm (r.dimensions.map fun d => aliasFor d.key)
  on : j.on.Perm (aliases.map (x.meets collapsed))

/-- However equality and the subtraction of the span are interpreted, as long as equal values are the same
and different values stay different: of rows that differ pairwise in a dimension of the request, at most
one meets given values of the base query's columns. -/
def MeetsAtMostOne (r : Request) (x : Reference) (j : Sql.QueryJoin) : Prop :=
  ∀ {V : Type u} (I : Sql.Interpretation V), I.EqSound →
    Function.Injective (I.less x.kind.interval.1 x.kind.interval.2) →
    ∀ rows : Set (String → V),
      (rows.Pairwise fun a b => ∃ d ∈ r.dimensions, a (aliasFor d.key) ≠ b (aliasFor d.key)) →
      ∀ ρ : Sql.ColumnRef → V,
        {row ∈ rows | ∀ e ∈ j.on, I.holds (I.eval (Sql.place ρ x.name row) e)}.Subsingleton

variable {V : Type u} {I : Sql.Interpretation V} {r : Request} {x : Reference}

/-- The compared columns of two rows have the same value only if the rows hold the same value. -/
theorem eval_comparedColumn_inj
    (hinj : Function.Injective (I.less x.kind.interval.1 x.kind.interval.2))
    {ρ : Sql.ColumnRef → V} {collapsed : List String} {a b : String → V} {aliasName : String}
    (h : I.eval (Sql.place ρ x.name a) (x.comparedColumn collapsed aliasName) =
      I.eval (Sql.place ρ x.name b) (x.comparedColumn collapsed aliasName)) :
    a aliasName = b aliasName := by
  unfold comparedColumn at h
  split_ifs at h
  · simp only [span, Sql.Interpretation.eval_minus_interval, Sql.Interpretation.eval_column,
      Sql.place_self] at h
    exact hinj h
  · simpa only [Sql.Interpretation.eval_column, Sql.place_self] using h

theorem meetsAtMostOne_of_joinedOn {collapsed : List String} {j : Sql.QueryJoin} {sub : Sql.Query}
    {aliases : List String} (h : JoinedOn r collapsed x j sub aliases) : MeetsAtMostOne.{u} r x j := by
  intro V I heq hinj rows hrows ρ a ha b hb
  by_contra hne
  obtain ⟨d, hd, hdiff⟩ := hrows ha.1 hb.1 hne
  have halias : aliasFor d.key ∈ aliases := h.dimensions.mem_iff.mpr (List.mem_map_of_mem hd)
  have hmem : x.meets collapsed (aliasFor d.key) ∈ j.on :=
    h.on.mem_iff.mpr (List.mem_map_of_mem halias)
  -- Both rows meet the same base value, as the row of the comparison does not touch the base columns.
  have hbase : ∀ row : String → V,
      I.holds (I.eval (Sql.place ρ x.name row) (x.meets collapsed (aliasFor d.key))) →
      ρ (some Plan.baseAlias, aliasFor d.key) =
        I.eval (Sql.place ρ x.name row) (x.comparedColumn collapsed (aliasFor d.key)) := by
    intro row hrow
    rw [meets, Sql.Interpretation.eval_eq, Sql.Interpretation.eval_column,
      Sql.place_of_ne ρ x.name_ne_baseAlias.symm] at hrow
    exact heq _ _ hrow
  have hsame : I.eval (Sql.place ρ x.name a) (x.comparedColumn collapsed (aliasFor d.key)) =
      I.eval (Sql.place ρ x.name b) (x.comparedColumn collapsed (aliasFor d.key)) := by
    rw [← hbase a (ha.2 _ hmem), ← hbase b (hb.2 _ hmem)]
  exact hdiff (eval_comparedColumn_inj hinj hsame)

end Reference

namespace Plan.Resolved

variable {r : Request} {settings : Settings} {p : Plan}

/-- The condition of a comparison's join, for its own dimension first and then for the others. -/
theorem joinCondition_eq {x : Reference} {c : Comparison}
    (hbind : Comparison.bind p.selection.dimensions x = .ok c) (collapsed : List String) :
    p.joinCondition collapsed c =
      (c.anchor :: p.declared.columns.filter (·.key != c.anchor.key)).map fun d =>
        x.meets collapsed d.aliasName := by
  have hkey := Comparison.anchor_key_of_bind hbind
  obtain ⟨rfl, -⟩ := Comparison.bind_eq_ok.mp hbind
  have hanchor : c.reference.comparedColumn collapsed c.anchor.aliasName =
      if c.anchor.key ∈ collapsed then .column (some c.name) c.anchor.aliasName
      else c.shift (.column (some c.name) c.anchor.aliasName) := by
    simp only [Reference.comparedColumn, DimensionColumn.aliasName, hkey, true_and, ite_not]
    rfl
  have hother : ∀ d ∈ p.declared.columns.filter (·.key != c.anchor.key),
      c.reference.comparedColumn collapsed d.aliasName = .column (some c.name) d.aliasName := by
    intro d hd
    have hne : d.key ≠ c.anchor.key := by simpa using (List.mem_filter.mp hd).2
    refine if_neg fun hand => hne ?_
    rw [hkey]
    exact aliasFor_inj.mp hand.1
  rw [joinCondition, List.map_cons]
  simp only [Reference.meets]
  rw [hanchor]
  congr 1
  exact List.map_congr_left fun d hd => by rw [hother d hd]

theorem joinedOn (h : Resolved r settings p) {x : Reference} {c : Comparison}
    (hbind : Comparison.bind p.selection.dimensions x = .ok c) (collapsed : List String) :
    x.JoinedOn r collapsed (p.comparisonJoin collapsed c) (p.comparisonQuery collapsed c)
      (p.declared.columns.map DimensionColumn.aliasName) where
  source := by
    obtain ⟨rfl, -⟩ := Comparison.bind_eq_ok.mp hbind
    rfl
  groups := by
    show Grouping.plainEntries p.declared.grouped = _
    rw [h.grouped_declared, Grouping.plainEntries, List.map_map]
    rfl
  nodup := by
    rw [DimensionColumn.map_aliasName]
    exact h.keys_declared_nodup.map aliasFor_injective
  dimensions := by
    have haliases := h.keys_declared_perm.map aliasFor
    rwa [← DimensionColumn.map_aliasName, List.map_map] at haliases
  on := by
    have hmem : c.anchor ∈ p.declared.columns :=
      (mem_declared _).mpr (Comparison.anchor_mem_of_bind hbind)
    show (p.joinCondition collapsed c).Perm _
    rw [joinCondition_eq hbind, List.map_map]
    exact (perm_cons_filter_ne h.keys_declared_nodup hmem).map _

end Plan.Resolved

/-- In every statement of a compiled request with references, each comparison is joined by one equality for
each dimension that it groups by, and no base row meets two of its rows. -/
theorem comparisons_meet_at_most_once {r : Request} {settings : Settings} {c : Compilation}
    (h : Compilation.ofRequest r settings = .ok c) (hrefs : r.references ≠ []) :
    ∀ s ∈ c.statements, List.Forall₂ (fun x j =>
      (∃ sub aliases, Reference.JoinedOn r s.kind.collapsed x j sub aliases) ∧
        Reference.MeetsAtMostOne.{u} r x j) r.references s.query.joins := by
  obtain ⟨p, hp, rfl⟩ := Compilation.ofRequest_eq_ok.mp h
  intro s hs
  rw [Compilation.query_of_mem hs, hp.query_eq_comparedQuery hrefs]
  refine hp.forall₂_joins fun x c hbind => ?_
  have hjoined := hp.joinedOn hbind s.kind.collapsed
  exact ⟨⟨_, _, hjoined⟩, Reference.meetsAtMostOne_of_joinedOn hjoined⟩

/-- Dates as numbers of days, with truth as a number that is not zero. Other forms of expression play no
part in it, nor do spans whose days the calendar decides. -/
def Sql.Interpretation.days : Interpretation Int where
  literal _ := 0
  call _ _ := 0
  case _ v := v
  binary
    | .of .eq, a, b => if a = b then 1 else 0
    | .of .subtract, a, b => a - b
    | _, _, _ => 0
  aggregate _ v := v
  inList _ _ _ := 0
  between _ _ _ := 0
  isNull _ _ := 0
  interval
    | n, .day => n
    | n, .week => 7 * n
    | _, _ => 0
  holds v := v ≠ 0

theorem comparisons_meet_at_most_once_clicksByDay :
    ∃ c, Compilation.ofRequest .clicksByDay .default = .ok c ∧
      ∀ s ∈ c.statements, List.Forall₂ (fun x j => ∀ rows : Set (String → Int),
        (rows.Pairwise fun a b =>
          ∃ d ∈ Request.clicksByDay.dimensions, a (aliasFor d.key) ≠ b (aliasFor d.key)) →
        ∀ ρ, {row ∈ rows | ∀ e ∈ j.on, Sql.Interpretation.days.holds
          (Sql.Interpretation.days.eval (Sql.place ρ (Reference.name x) row) e)}.Subsingleton)
        Request.clicksByDay.references s.query.joins := by
  have heq : Sql.Interpretation.days.EqSound := by
    intro a b h
    by_contra hne
    exact h (if_neg hne)
  have hinj : ∀ quantity unit, Function.Injective (Sql.Interpretation.days.less quantity unit) := by
    intro quantity unit a b h
    exact (Int.sub_left_inj _).mp h
  obtain ⟨c, hc⟩ := compiles_clicksByDay
  refine ⟨c, hc, fun s hs => ?_⟩
  have hmeets := comparisons_meet_at_most_once hc (by decide) s hs
  exact hmeets.imp fun x j hx => hx.2 Sql.Interpretation.days heq (hinj _ _)

end CubeSql
