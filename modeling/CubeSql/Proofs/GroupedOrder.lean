import CubeSql.Proofs.Plan

/-!
# The order of some of the columns

Ordering and grouping look at the keys and flags of columns only, and not at what the columns are computed
from. Among columns that hold all members of the rollup groups, they give the columns the order and the
entries that they have among all columns.
-/

namespace CubeSql

/-- The column without what it is computed from. -/
def DimensionColumn.bare (d : DimensionColumn) : DimensionColumn := { d with expr := .literal .null }

namespace Sql

/-- The expression is a column of one of the names, of whatever table. -/
def Expr.isNamed (names : List String) : Expr → Bool
  | .column _ name => name ∈ names
  | _ => false

/-- The entry names a column of one of the names. -/
def GroupItem.isNamed (names : List String) (g : GroupItem) : Bool := g.exprs.any (Expr.isNamed names)

end Sql

namespace Grouping

variable {groups : List (List String)} {columns : List DimensionColumn} {keys : List String}

/-! ## Columns without expressions -/

theorem runs_map_bare (groups : List (List String)) (columns : List DimensionColumn) :
    runs groups (columns.map DimensionColumn.bare) =
      (runs groups columns).map (List.map DimensionColumn.bare) := by
  induction columns using runs_induction groups with
  | nil =>
    rw [List.map_nil, runs]
    rfl
  | alone d rest hgroup ih =>
    have hbare : groupOf? groups d.bare = none := hgroup
    rw [List.map_cons, runs_alone hbare, ih, runs_alone hgroup]
    rfl
  | led d rest g hgroup ih =>
    have hbare : groupOf? groups d.bare = some g := hgroup
    have hmembers : (rest.map DimensionColumn.bare).filter (groupOf? groups · == some g) =
        (rest.filter (groupOf? groups · == some g)).map DimensionColumn.bare := List.filter_map
    have hothers : (rest.map DimensionColumn.bare).filter (groupOf? groups · != some g) =
        (rest.filter (groupOf? groups · != some g)).map DimensionColumn.bare := List.filter_map
    rw [List.map_cons, runs_led hbare, hmembers, hothers, ih, runs_led hgroup]
    rfl

theorem gather_map_bare (groups : List (List String)) (columns : List DimensionColumn) :
    gather groups (columns.map DimensionColumn.bare) = (gather groups columns).map DimensionColumn.bare := by
  rw [gather, runs_map_bare, gather, List.map_flatten]

theorem flaggedLast_map_bare (columns : List DimensionColumn) :
    flaggedLast (columns.map DimensionColumn.bare) = (flaggedLast columns).map DimensionColumn.bare := by
  rw [flaggedLast, flaggedLast, List.map_append, List.filter_map, List.filter_map]
  rfl

theorem plainEntries_map_bare (columns : List DimensionColumn) :
    plainEntries (columns.map DimensionColumn.bare) = plainEntries columns := by
  rw [plainEntries, List.map_map]
  rfl

theorem rollupEntries_map_bare (columns : List DimensionColumn) (groups : List (List String)) :
    rollupEntries ⟨columns.map DimensionColumn.bare, groups⟩ = rollupEntries ⟨columns, groups⟩ := by
  have hplain : ((columns.map DimensionColumn.bare).filter (·.grouped)).filter
      (fun d => (groupOf? groups d).isNone) =
      ((columns.filter (·.grouped)).filter fun d => (groupOf? groups d).isNone).map
        DimensionColumn.bare := by
    rw [List.filter_map, List.filter_map]
    rfl
  have hrolled : ((columns.map DimensionColumn.bare).filter (·.grouped)).filter
      (fun d => (groupOf? groups d).isSome) =
      ((columns.filter (·.grouped)).filter fun d => (groupOf? groups d).isSome).map
        DimensionColumn.bare := by
    rw [List.filter_map, List.filter_map]
    rfl
  have hrefs : List.map (aliasRef none) ∘ List.map DimensionColumn.bare = List.map (aliasRef none) := by
    funext members
    exact List.map_map
  simp only [rollupEntries_eq, grouped, hplain, hrolled, plainEntries_map_bare, runs_map_bare, List.map_map,
    hrefs]

theorem orderEntries_map_bare (columns : List DimensionColumn) (groups : List (List String))
    (table : Option String) : orderEntries ⟨columns.map DimensionColumn.bare, groups⟩ table =
      orderEntries ⟨columns, groups⟩ table := by
  rw [orderEntries, grouped, List.filter_map, List.map_map]
  rfl

/-! ## Columns of some keys -/

/-- Where all members of the rollup groups are kept, gathering them moves the kept columns alike. -/
theorem filter_gather {p : DimensionColumn → Bool}
    (h : ∀ d ∈ columns, (groupOf? groups d).isSome = true → p d = true) :
    (gather groups columns).filter p = gather groups (columns.filter p) := by
  unfold gather
  induction columns using runs_induction groups with
  | nil => simp [runs]
  | alone d rest hgroup ih =>
    have hrest := ih fun c hc => h c (List.mem_cons_of_mem _ hc)
    rw [runs_alone hgroup, List.flatten_cons, List.singleton_append, List.filter_cons, List.filter_cons, hrest]
    split_ifs
    · rw [runs_alone hgroup]
      rfl
    · rfl
  | led d rest g hgroup ih =>
    have hd : p d = true := h d List.mem_cons_self (by rw [hgroup]; rfl)
    have hothers := ih fun c hc => h c (List.mem_cons_of_mem _ (List.mem_filter.mp hc).1)
    rw [runs_led hgroup, List.flatten_cons, List.cons_append, List.filter_cons_of_pos hd, List.filter_append,
      hothers, List.filter_cons_of_pos hd, runs_led hgroup, List.filter_comm, List.filter_comm (p := p)]
    rfl

theorem filter_flaggedLast (p : DimensionColumn → Bool) (columns : List DimensionColumn) :
    (flaggedLast columns).filter p = flaggedLast (columns.filter p) := by
  simp only [flaggedLast, List.filter_append, List.filter_filter, Bool.and_comm]

/-- The column is one of the given keys. -/
def keyed (keys : List String) (d : DimensionColumn) : Bool := d.key ∈ keys

theorem isNamed_aliasRef (keys : List String) (table : Option String) (d : DimensionColumn) :
    (aliasRef table d).isNamed (keys.map aliasFor) = keyed keys d := by
  simp only [aliasRef, Sql.Expr.isNamed, DimensionColumn.aliasName, keyed,
    List.mem_map_of_injective aliasFor_injective]

theorem filter_plainEntries (keys : List String) (columns : List DimensionColumn) :
    (plainEntries columns).filter (Sql.GroupItem.isNamed (keys.map aliasFor)) =
      plainEntries (columns.filter (keyed keys)) := by
  rw [plainEntries, List.filter_map]
  congr 1
  refine List.filter_congr fun d _ => ?_
  simp [Sql.GroupItem.isNamed, Sql.GroupItem.exprs, isNamed_aliasRef]

theorem filter_rollupOf {names : List String} {args : List (List Sql.Expr)}
    (h : ∀ arg ∈ args, ∃ e ∈ arg, e.isNamed names = true) :
    (Sql.rollupOf args).filter (Sql.GroupItem.isNamed names) = Sql.rollupOf args := by
  cases args with
  | nil => rfl
  | cons arg args =>
    obtain ⟨e, he, hnamed⟩ := h arg List.mem_cons_self
    have hentry : (Sql.GroupItem.rollup (arg :: args)).isNamed names = true :=
      List.any_eq_true.mpr ⟨e, List.mem_flatten_of_mem List.mem_cons_self he, hnamed⟩
    exact List.filter_eq_self.mpr (List.forall_mem_singleton.mpr hentry)

/-- Where the rollup groups roll up columns of some keys only, the entries of GROUP BY for these keys are those
that the columns of these keys have by themselves. -/
theorem filter_rollupEntries (h : ∀ d ∈ columns, (groupOf? groups d).isSome = true → keyed keys d = true) :
    (rollupEntries ⟨columns, groups⟩).filter (Sql.GroupItem.isNamed (keys.map aliasFor)) =
      rollupEntries ⟨columns.filter (keyed keys), groups⟩ := by
  have hkeyed : ∀ d ∈ (columns.filter (·.grouped)).filter fun d => (groupOf? groups d).isSome,
      keyed keys d = true := by
    intro d hd
    obtain ⟨hmem, hgroup⟩ := List.mem_filter.mp hd
    exact h d (List.mem_filter.mp hmem).1 hgroup
  have hplain : ((columns.filter (·.grouped)).filter fun d => (groupOf? groups d).isNone).filter
      (keyed keys) =
      ((columns.filter (keyed keys)).filter (·.grouped)).filter fun d => (groupOf? groups d).isNone := by
    rw [List.filter_comm, List.filter_comm (p := keyed keys)]
  have hrolled : ((columns.filter (keyed keys)).filter (·.grouped)).filter
      (fun d => (groupOf? groups d).isSome) =
      (columns.filter (·.grouped)).filter fun d => (groupOf? groups d).isSome := by
    rw [List.filter_comm (q := keyed keys), List.filter_comm (q := keyed keys)]
    exact List.filter_eq_self.mpr hkeyed
  -- Every argument of ROLLUP holds a column of one of the keys, so that the entry of ROLLUP is kept whole.
  have hmembers : ∀ arg ∈ (runs groups
      ((columns.filter (·.grouped)).filter fun d => (groupOf? groups d).isSome)).map
        (List.map (aliasRef none)), ∃ e ∈ arg, e.isNamed (keys.map aliasFor) = true := by
    intro arg harg
    obtain ⟨members, hrun, rfl⟩ := List.mem_map.mp harg
    obtain ⟨d, hd⟩ := List.exists_mem_of_ne_nil _ (runs_ne_nil groups _ members hrun)
    refine ⟨aliasRef none d, List.mem_map_of_mem hd, ?_⟩
    rw [isNamed_aliasRef]
    exact hkeyed d ((gather_perm groups _).mem_iff.mp (List.mem_flatten_of_mem hrun hd))
  simp only [rollupEntries_eq, grouped, List.filter_append, filter_plainEntries, hplain, hrolled]
  rw [filter_rollupOf hmembers]

theorem filter_orderEntries (columns : List DimensionColumn) (table : Option String) :
    (orderEntries ⟨columns, groups⟩ table).filter (fun o => o.expr.isNamed (keys.map aliasFor)) =
      orderEntries ⟨columns.filter (keyed keys), groups⟩ table := by
  rw [orderEntries, orderEntries, grouped, grouped, List.filter_map, List.filter_comm (q := keyed keys)]
  congr 1
  refine List.filter_congr fun d _ => ?_
  exact isNamed_aliasRef keys table d

end Grouping

end CubeSql
