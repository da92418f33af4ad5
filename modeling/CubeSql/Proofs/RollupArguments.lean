import CubeSql.Proofs.GroupingSets
import CubeSql.Proofs.SplitEffects
import CubeSql.Proofs.StableGrouping
import Mathlib.Data.List.Pairwise

/-!
# The arguments of ROLLUP

GROUP BY names every grouped column once. The columns of each rollup group are one argument of ROLLUP, and
the arguments stand in the order in which the dimension columns meet the groups: by the first column of
each. So they follow the request exactly if the request lists its groups in this order.
-/

namespace CubeSql

/-! ## Groups of keys -/

/-- Of the keys in one of two groups, the first is in the first group. -/
def MetFirst (keys group group' : List String) : Prop :=
  ∃ key ∈ (keys.filter fun key => key ∈ group ∨ key ∈ group').head?, key ∈ group

/-- Where no key is named twice, a key is in one group only. -/
theorem group_eq_of_mem {groups : List (List String)} (hn : groups.flatten.Nodup) {group group' : List String}
    (hg : group ∈ groups) (hg' : group' ∈ groups) {key : String} (h : key ∈ group) (h' : key ∈ group') :
    group = group' := by
  have hsymm : Std.Symm (List.Disjoint (α := String)) := ⟨fun _ _ h _ hkey hkey' => h hkey' hkey⟩
  by_contra hne
  exact (List.nodup_flatten.mp hn).2.forall hg hg' hne h h'

theorem nodup_of_flatten {groups : List (List String)} (hn : groups.flatten.Nodup)
    (hne : ∀ group ∈ groups, group ≠ []) : groups.Nodup := by
  refine (List.nodup_flatten.mp hn).2.imp_of_mem fun {group group'} hg _ hdisjoint hsame => ?_
  obtain ⟨key, hkey⟩ := List.exists_mem_of_ne_nil group (hne group hg)
  rw [← hsame] at hdisjoint
  exact hdisjoint hkey hkey

theorem MetFirst.antisymm {groups : List (List String)} (hn : groups.flatten.Nodup) {keys : List String}
    {group group' : List String} (hg : group ∈ groups) (hg' : group' ∈ groups)
    (h : MetFirst keys group group') (h' : MetFirst keys group' group) : group = group' := by
  obtain ⟨key, hfirst, hkey⟩ := h
  obtain ⟨key', hfirst', hkey'⟩ := h'
  have hcomm : ∀ key, (key ∈ group' ∨ key ∈ group) = (key ∈ group ∨ key ∈ group') := fun _ =>
    propext or_comm
  simp only [hcomm] at hfirst'
  obtain rfl : key = key' := Option.some.inj (hfirst.symm.trans hfirst')
  exact group_eq_of_mem hn hg hg' hkey hkey'

/-! ## What is rolled up -/

namespace Request

/-- The keys of each rollup group. -/
def rollupGroups (r : Request) : List (List String) := r.rollup.map RollupGroup.keys

/-- The columns of a group, in the order of the dimension columns. -/
def rollupArgument (r : Request) (group : List String) : List Sql.Expr :=
  (r.columnKeys.filter (· ∈ group)).map fun key => .column none (aliasFor key)

theorem flatten_rollupGroups (r : Request) : r.rollupGroups.flatten = r.rollup.flatMap RollupGroup.keys :=
  List.flatMap_def.symm

theorem Valid.flatten_rollupGroups_nodup {r : Request} (h : r.Valid) : r.rollupGroups.flatten.Nodup := by
  rw [flatten_rollupGroups]
  exact h.rolled_nodup

theorem Valid.rollupGroups_ne_nil {r : Request} (h : r.Valid) : ∀ group ∈ r.rollupGroups, group ≠ [] := by
  intro group hgroup
  obtain ⟨g, hg, rfl⟩ := List.mem_map.mp hgroup
  exact h.groups_nonempty g hg

end Request

/-- ROLLUP has one argument for each group in turn, which names the columns of the group. -/
def Sql.Query.RollsUpGroups (groups : List (List String)) (q : Query) : Prop :=
  List.Forall₂ (fun arg group => arg.Perm (group.map fun key => Expr.column none (aliasFor key)))
    (q.groups.flatMap GroupItem.arguments) groups

/-- GROUP BY of a query that rolls up what a request does, where the rolled up columns have the given keys. -/
structure Sql.Query.RealizesGroups (r : Request) (rollupKeys : List String) (q : Query) : Prop where
  /-- The grouped columns are named and nothing else. -/
  covers : q.groupExprs.Perm (r.groupedNames.map (.column none))
  /-- None is named twice, be it plainly or in ROLLUP. -/
  once : q.groupExprs.Nodup
  /-- Without rollup groups all entries are plain. -/
  plain : r.rollup = [] → ∃ es : List Expr, q.groups = es.map .expr
  /-- With rollup groups there is one ROLLUP, which is the last entry. -/
  rollup : r.rollup ≠ [] →
    ∃ (es : List Expr) (args : List (List Expr)), q.groups = es.map .expr ++ [.rollup args]
  /-- The arguments are the rollup groups, in some order. -/
  arguments : ∃ ordered : List (List String), ordered.Perm r.rollupGroups ∧ q.RollsUpGroups ordered
  /-- One after another they name the rolled up columns. -/
  flatten : (q.groups.flatMap GroupItem.arguments).flatten =
    rollupKeys.map fun key => .column none (aliasFor key)

/-- The query is grouped by every declared column, each by one plain entry. -/
def Sql.Query.GroupsDeclared (r : Request) (q : Query) : Prop :=
  ∃ names : List String, names.Perm r.declaredNames ∧ names.Nodup ∧
    q.groups = names.map fun name => .expr (.column none name)

/-! ## Runs -/

namespace Grouping

variable {groups : List (List String)} {columns : List DimensionColumn}

/-- Columns that are in neither group do not matter to which of the groups is met first. -/
theorem metFirst_filter {p : DimensionColumn → Bool} {group group' : List String}
    (h : ∀ d ∈ columns, d.key ∈ group ∨ d.key ∈ group' → p d = true) :
    MetFirst ((columns.filter p).map DimensionColumn.key) group group' ↔
      MetFirst (columns.map DimensionColumn.key) group group' := by
  have hkept : ((columns.filter p).map DimensionColumn.key).filter
      (fun key => decide (key ∈ group ∨ key ∈ group')) =
      (columns.map DimensionColumn.key).filter fun key => decide (key ∈ group ∨ key ∈ group') := by
    rw [List.filter_map, List.filter_map, List.filter_filter]
    congr 1
    refine List.filter_congr fun d hd => ?_
    have hd' := h d hd
    by_cases hmem : d.key ∈ group ∨ d.key ∈ group'
    · simp [hd' hmem]
    · simp [hmem]
  rw [MetFirst, hkept, MetFirst]

/-- The groups that columns are in, in the order in which the columns meet them. -/
structure MeetsInOrder (groups : List (List String)) (columns : List DimensionColumn)
    (ordered : List (List String)) : Prop where
  nodup : ordered.Nodup
  mem_iff : ∀ group, group ∈ ordered ↔ group ∈ groups ∧ ∃ d ∈ columns, d.key ∈ group
  sorted : ordered.Pairwise (MetFirst (columns.map DimensionColumn.key))

theorem MeetsInOrder.nil (groups : List (List String)) : MeetsInOrder groups [] [] :=
  ⟨.nil, by simp, .nil⟩

variable {group : List String} {ordered : List (List String)}

/-- Groups that are met among the columns outside one group have no key of it. -/
theorem MeetsInOrder.apart (h : MeetsInOrder groups (columns.filter (!keyed group ·)) ordered)
    (hn : groups.flatten.Nodup) (hgroup : group ∈ groups) {group' : List String} (hgroup' : group' ∈ ordered)
    {key : String} (hkey : key ∈ group') : key ∉ group := by
  intro hboth
  obtain ⟨hmem, c, hc, hckey⟩ := (h.mem_iff group').mp hgroup'
  rw [group_eq_of_mem hn hmem hgroup hkey hboth] at hckey
  simpa [keyed, hckey] using (List.mem_filter.mp hc).2

/-- The group of the first column is met first. -/
theorem MeetsInOrder.cons {d : DimensionColumn}
    (h : MeetsInOrder groups ((d :: columns).filter (!keyed group ·)) ordered) (hn : groups.flatten.Nodup)
    (hgroup : group ∈ groups) (hd : d.key ∈ group) :
    MeetsInOrder groups (d :: columns) (group :: ordered) where
  nodup := List.nodup_cons.mpr ⟨fun hmem => h.apart hn hgroup hmem hd hd, h.nodup⟩
  mem_iff group' := by
    rw [List.mem_cons, h.mem_iff]
    constructor
    · rintro (rfl | ⟨hmem, c, hc, hkey⟩)
      · exact ⟨hgroup, d, List.mem_cons_self, hd⟩
      · exact ⟨hmem, c, (List.mem_filter.mp hc).1, hkey⟩
    · rintro ⟨hmem, c, hc, hkey⟩
      by_cases hc' : c.key ∈ group
      · exact .inl (group_eq_of_mem hn hmem hgroup hkey hc')
      · exact .inr ⟨hmem, c, List.mem_filter.mpr ⟨hc, by simpa [keyed] using hc'⟩, hkey⟩
  sorted := by
    refine List.pairwise_cons.mpr ⟨fun group' _ => ⟨d.key, by simp [hd], hd⟩, ?_⟩
    refine h.sorted.imp_of_mem fun {a b} ha hb hab => (metFirst_filter fun c _ hc => ?_).mp hab
    have hc' : c.key ∉ group := by
      rcases hc with hc | hc
      · exact h.apart hn hgroup ha hc
      · exact h.apart hn hgroup hb hc
    simpa [keyed] using hc'

/-- Of a column that is in some group, the key tells which. -/
theorem groupOf?_eq_some_iff_keyed (hn : groups.flatten.Nodup) {g : Nat} (hg : groups[g]? = some group)
    {d : DimensionColumn} (hd : (groupOf? groups d).isSome = true) :
    groupOf? groups d = some g ↔ keyed group d = true := by
  rw [groupOf?_eq_some_iff hn, hg, keyed, decide_eq_true_iff]
  simp [rollup_of_groupOf? hd]

/-- The runs of columns that all are in groups are those of the groups, in the order in which they are met. -/
theorem exists_order_of_runs (hn : groups.flatten.Nodup)
    (hcolumns : ∀ d ∈ columns, (groupOf? groups d).isSome = true) :
    ∃ ordered, MeetsInOrder groups columns ordered ∧
      runs groups columns = ordered.map fun group => columns.filter (keyed group) := by
  induction columns using runs_induction groups with
  | nil => exact ⟨[], .nil groups, by rw [runs]; rfl⟩
  | alone d rest hgroup ih =>
    have hd := hcolumns d List.mem_cons_self
    rw [hgroup] at hd
    cases hd
  | led d rest g hgroup ih =>
    obtain ⟨-, group, hg, hkey⟩ := (groupOf?_eq_some_iff hn).mp hgroup
    have hmem : group ∈ groups := List.mem_of_getElem? hg
    have hd : keyed group d = true := decide_eq_true hkey
    have hmember : ∀ c ∈ rest, groupOf? groups c = some g ↔ keyed group c = true := fun c hc =>
      groupOf?_eq_some_iff_keyed hn hg (hcolumns c (List.mem_cons_of_mem _ hc))
    have hmembers : d :: rest.filter (groupOf? groups · == some g) = (d :: rest).filter (keyed group) := by
      rw [List.filter_cons_of_pos hd]
      congr 1
      refine List.filter_congr fun c hc => ?_
      rw [Bool.eq_iff_iff, beq_iff_eq, hmember c hc]
    have hothers : rest.filter (groupOf? groups · != some g) = (d :: rest).filter (!keyed group ·) := by
      rw [List.filter_cons_of_neg (by simp [hd])]
      refine List.filter_congr fun c hc => ?_
      rw [Bool.eq_iff_iff, bne_iff_ne, ne_eq, hmember c hc, Bool.not_eq_true', Bool.not_eq_true]
    rw [hothers] at ih
    obtain ⟨ordered, hordered, hruns⟩ := ih fun c hc => hcolumns c (List.mem_filter.mp hc).1
    refine ⟨group :: ordered, hordered.cons hn hmem hkey, ?_⟩
    rw [runs_led hgroup, hmembers, hothers, hruns, List.map_cons]
    congr 1
    refine List.map_congr_left fun group' hgroup' => ?_
    rw [List.filter_filter]
    refine List.filter_congr fun c _ => ?_
    by_cases hc : c.key ∈ group'
    · have hc' := hordered.apart hn hmem hgroup' hc
      simp [keyed, hc']
    · simp [keyed, hc]

theorem flaggedLast_of_flagged (h : ∀ d ∈ columns, d.isFlagged = true) : flaggedLast columns = columns := by
  rw [flaggedLast, List.filter_eq_nil_iff.mpr fun d hd => by simp [h d hd], List.filter_eq_self.mpr h,
    List.nil_append]

theorem arguments_rollupEntries (g : Grouping) : g.rollupEntries.flatMap Sql.GroupItem.arguments =
    (runs g.groups (g.grouped.filter fun d => (groupOf? g.groups d).isSome)).map
      (List.map (aliasRef none)) := by
  rw [rollupEntries_eq, plainEntries_eq_map, Sql.GroupItem.arguments_entries]

end Grouping

/-! ## The base query -/

namespace Plan.Resolved

variable {r : Request} {settings : Settings} {p : Plan}

/-- The columns of the base query are those that the splits leave, each rolled up or not, in the order that
the rollup groups give them. -/
theorem exists_marked (h : Resolved r settings p) :
    ∃ marked : List DimensionColumn, marked.map DimensionColumn.key = r.columnKeys ∧
      p.grouping.columns.Perm marked ∧
      p.grouping.columns = Grouping.gather p.grouping.groups (Grouping.flaggedLast marked) := by
  obtain ⟨columns, hcols, hgroup⟩ := h.grouping
  have hkeys := SplitColumns.keys_of_ofSplits hcols
  rw [h.selection.restrictions.splits, h.keys_dimensions] at hkeys
  refine ⟨columns.map (rolledUp (r.rollup.flatMap RollupGroup.keys)), ?_, ?_, ?_⟩
  · rw [List.map_map]
    exact hkeys
  · rw [h.grouping_eq hcols hgroup]
    exact (Grouping.gather_perm _ _).trans (Grouping.flaggedLast_perm _)
  · rw [h.grouping_eq hcols hgroup]

theorem columnKeys_perm (h : Resolved r settings p) : p.grouping.keys.Perm r.columnKeys := by
  obtain ⟨marked, hkeys, hperm, -⟩ := h.exists_marked
  rw [← hkeys]
  exact hperm.map _

theorem rollupKeys_perm_flatten (h : Resolved r settings p) :
    p.grouping.rollupKeys.Perm r.rollupGroups.flatten := by
  rw [r.flatten_rollupGroups]
  exact h.rollupKeys_perm

theorem isSome_groupOf?_iff_key (h : Resolved r settings p) {d : DimensionColumn}
    (hd : d ∈ p.grouping.columns) :
    (Grouping.groupOf? p.grouping.groups d).isSome = true ↔ d.key ∈ r.rollupGroups.flatten := by
  rw [h.isSome_groupOf?_iff hd, h.rollup_iff hd, r.flatten_rollupGroups]

/-- Ordering the columns leaves the runs of those in rollup groups as they are. -/
theorem runs_grouped (h : Resolved r settings p) {marked : List DimensionColumn}
    (hcolumns : p.grouping.columns = Grouping.gather p.grouping.groups (Grouping.flaggedLast marked)) :
    Grouping.runs p.grouping.groups
      (p.grouping.grouped.filter fun d => (Grouping.groupOf? p.grouping.groups d).isSome) =
      Grouping.runs p.grouping.groups
        (marked.filter fun d => (Grouping.groupOf? p.grouping.groups d).isSome) := by
  have hflagged : ∀ d ∈ marked.filter (fun d => (Grouping.groupOf? p.grouping.groups d).isSome),
      d.isFlagged = true := by
    intro d hd
    obtain ⟨g, hg⟩ := Option.isSome_iff_exists.mp (List.mem_filter.mp hd).2
    exact Grouping.isFlagged_of_groupOf? hg
  rw [Grouping.filter_isSome_grouped fun d hd hgroup =>
      h.grouped_of_rollup hd (Grouping.rollup_of_groupOf? hgroup), hcolumns,
    Grouping.filter_gather fun _ _ hd => hd, Grouping.runs_gather, Grouping.filter_flaggedLast,
    Grouping.flaggedLast_of_flagged hflagged]

/-- Every rollup group has columns, and so it is met. -/
theorem mem_order_iff (h : Resolved r settings p) {marked : List DimensionColumn}
    {ordered : List (List String)} (hperm : p.grouping.columns.Perm marked)
    (hordered : Grouping.MeetsInOrder r.rollupGroups
      (marked.filter fun d => (Grouping.groupOf? p.grouping.groups d).isSome) ordered) (group : List String) :
    group ∈ ordered ↔ group ∈ r.rollupGroups := by
  rw [hordered.mem_iff, and_iff_left_of_imp]
  intro hgroup
  obtain ⟨key, hkey⟩ := List.exists_mem_of_ne_nil group (h.valid.rollupGroups_ne_nil group hgroup)
  have hnamed : key ∈ r.rollupGroups.flatten := List.mem_flatten_of_mem hgroup hkey
  obtain ⟨d, hd, rfl⟩ := List.mem_map.mp (h.rollupKeys_perm_flatten.mem_iff.mpr hnamed)
  have hd' := (List.mem_filter.mp hd).1
  exact ⟨d, List.mem_filter.mpr ⟨hperm.mem_iff.mp hd', (h.isSome_groupOf?_iff_key hd').mpr hnamed⟩, hkey⟩

/-- The arguments of ROLLUP are the request's rollup groups, in the order in which the columns meet them. -/
theorem exists_rollup_order (h : Resolved r settings p) :
    ∃ ordered : List (List String), ordered.Perm r.rollupGroups ∧
      ordered.Pairwise (MetFirst r.columnKeys) ∧
      p.grouping.rollupEntries.flatMap Sql.GroupItem.arguments = ordered.map r.rollupArgument := by
  obtain ⟨marked, hkeys, hperm, hcolumns⟩ := h.exists_marked
  have hgroups : p.grouping.groups = r.rollupGroups := h.groups_eq
  have hn := h.valid.flatten_rollupGroups_nodup
  have hin : ∀ d ∈ marked, ∀ group ∈ r.rollupGroups, d.key ∈ group →
      (Grouping.groupOf? p.grouping.groups d).isSome = true := fun d hd group hgroup hkey =>
    (h.isSome_groupOf?_iff_key (hperm.mem_iff.mpr hd)).mpr (List.mem_flatten_of_mem hgroup hkey)
  have hall : ∀ d ∈ marked.filter fun d => (Grouping.groupOf? p.grouping.groups d).isSome,
      (Grouping.groupOf? r.rollupGroups d).isSome = true := by
    intro d hd
    rw [← hgroups]
    exact (List.mem_filter.mp hd).2
  obtain ⟨ordered, hordered, hruns⟩ := Grouping.exists_order_of_runs hn hall
  have hmem := h.mem_order_iff hperm hordered
  refine ⟨ordered, ?_, ?_, ?_⟩
  · exact (List.perm_ext_iff_of_nodup hordered.nodup
      (nodup_of_flatten hn h.valid.rollupGroups_ne_nil)).mpr hmem
  · rw [← hkeys]
    refine hordered.sorted.imp_of_mem fun {a b} ha hb hab => ?_
    refine (Grouping.metFirst_filter fun d hd hkey => ?_).mp hab
    rcases hkey with hkey | hkey
    · exact hin d hd a ((hmem a).mp ha) hkey
    · exact hin d hd b ((hmem b).mp hb) hkey
  · rw [Grouping.arguments_rollupEntries, h.runs_grouped hcolumns, hgroups]
    rw [hgroups] at hruns
    rw [hruns, List.map_map]
    refine List.map_congr_left fun group hg => ?_
    have hmembers : (marked.filter fun d => (Grouping.groupOf? r.rollupGroups d).isSome).filter
        (Grouping.keyed group) = marked.filter (Grouping.keyed group) := by
      rw [List.filter_filter]
      refine List.filter_congr fun d hd => ?_
      have hd' := hin d hd group ((hmem group).mp hg)
      rw [hgroups] at hd'
      by_cases hkey : d.key ∈ group
      · rw [hd' hkey, Bool.and_true]
      · simp [Grouping.keyed, hkey]
    show ((marked.filter _).filter (Grouping.keyed group)).map (Grouping.aliasRef none) = _
    rw [hmembers, Request.rollupArgument, ← hkeys, List.filter_map, List.map_map]
    rfl

/-- The argument of a rollup group names every column of the group once. -/
theorem rollupArgument_perm (h : Resolved r settings p) {group : List String} (hg : group ∈ r.rollupGroups) :
    (r.rollupArgument group).Perm (group.map fun key => .column none (aliasFor key)) := by
  have hn : r.columnKeys.Nodup := h.columnKeys_perm.nodup_iff.mp h.keys_nodup
  have hgroup : group.Nodup := (List.nodup_flatten.mp h.valid.flatten_rollupGroups_nodup).1 group hg
  refine List.Perm.map _ ((List.perm_ext_iff_of_nodup (hn.filter _) hgroup).mpr fun key => ?_)
  rw [List.mem_filter, decide_eq_true_iff, and_iff_right_of_imp]
  intro hkey
  have hnamed := h.rollupKeys_perm_flatten.mem_iff.mpr (List.mem_flatten_of_mem hg hkey)
  exact h.columnKeys_perm.mem_iff.mp ((List.filter_sublist.map _).mem hnamed)

theorem rollsUpGroups_of_arguments (h : Resolved r settings p) {q : Sql.Query} {ordered : List (List String)}
    (hperm : ordered.Perm r.rollupGroups)
    (hargs : q.groups.flatMap Sql.GroupItem.arguments = ordered.map r.rollupArgument) :
    q.RollsUpGroups ordered := by
  rw [Sql.Query.RollsUpGroups, hargs, List.forall₂_map_left_iff]
  exact List.forall₂_same.mpr fun group hg => h.rollupArgument_perm (hperm.mem_iff.mp hg)

/-- ROLLUP follows the request exactly if the columns meet its groups in request order. -/
theorem rollsUpGroups_iff (h : Resolved r settings p) {q : Sql.Query} {ordered : List (List String)}
    (hperm : ordered.Perm r.rollupGroups) (hsorted : ordered.Pairwise (MetFirst r.columnKeys))
    (hargs : q.groups.flatMap Sql.GroupItem.arguments = ordered.map r.rollupArgument) :
    q.RollsUpGroups r.rollupGroups ↔ r.rollupGroups.Pairwise (MetFirst r.columnKeys) := by
  have hn := h.valid.flatten_rollupGroups_nodup
  have hinj : Function.Injective fun key => Sql.Expr.column none (aliasFor key) := by
    intro key key' hsame
    injection hsame with _ hname
    exact aliasFor_inj.mp hname
  constructor
  · intro hrolls
    -- What two groups have in common with one argument is a key, and no key is in two groups.
    have hpair : ∀ group ∈ ordered, ∀ group' ∈ r.rollupGroups, (r.rollupArgument group).Perm
        (group'.map fun key => .column none (aliasFor key)) → group = group' := by
      intro group hg group' hg' hsame
      have hg := hperm.mem_iff.mp hg
      obtain ⟨key, hkey⟩ := List.exists_mem_of_ne_nil group (h.valid.rollupGroups_ne_nil group hg)
      have hnamed := hsame.mem_iff.mp ((h.rollupArgument_perm hg).mem_iff.mpr (List.mem_map_of_mem hkey))
      exact group_eq_of_mem hn hg hg' hkey ((List.mem_map_of_injective hinj).mp hnamed)
    rw [Sql.Query.RollsUpGroups, hargs, List.forall₂_map_left_iff, List.forall₂_iff_zip] at hrolls
    have heq : ordered = r.rollupGroups := by
      rw [← List.forall₂_eq_eq_eq, List.forall₂_iff_zip]
      refine ⟨hrolls.1, fun {group group'} hmem => ?_⟩
      obtain ⟨hg, hg'⟩ := List.of_mem_zip hmem
      exact hpair group hg group' hg' (hrolls.2 hmem)
    rw [← heq]
    exact hsorted
  · intro hpairs
    have heq : ordered = r.rollupGroups := List.Perm.eq_of_pairwise
      (fun group group' hg hg' hle hle' => MetFirst.antisymm hn (hperm.mem_iff.mp hg) hg' hle hle')
      hsorted hpairs hperm
    have hrolls := h.rollsUpGroups_of_arguments hperm hargs
    rwa [heq] at hrolls

theorem flatten_arguments (h : Resolved r settings p) :
    (p.grouping.rollupEntries.flatMap Sql.GroupItem.arguments).flatten =
      p.grouping.rollupKeys.map fun key => .column none (aliasFor key) := by
  have hrolled : p.grouping.columns.filter (fun d => (Grouping.groupOf? p.grouping.groups d).isSome) =
      p.grouping.columns.filter (·.rollup) :=
    List.filter_congr fun d hd => Bool.eq_iff_iff.mpr (h.isSome_groupOf?_iff hd)
  rw [Grouping.arguments_rollupEntries, ← List.map_flatten, Grouping.filter_isSome_grouped fun d hd hgroup =>
      h.grouped_of_rollup hd (Grouping.rollup_of_groupOf? hgroup), Grouping.flatten_runs h.gather_columns,
    hrolled, Grouping.rollupKeys, List.map_map]
  rfl

theorem realizesGroups_baseQuery (h : Resolved r settings p) (collapsed : List String) :
    (p.baseQuery collapsed).RealizesGroups r p.grouping.rollupKeys := by
  obtain ⟨ordered, hperm, -, hargs⟩ := h.exists_rollup_order
  have hentries := p.grouping.rollupEntries_eq
  rw [← Grouping.arguments_rollupEntries, Grouping.plainEntries_eq_map, hargs] at hentries
  have hcovers : (p.baseQuery collapsed).groupExprs.Perm (r.groupedNames.map (.column none)) := by
    refine (Grouping.exprs_rollupEntries p.grouping).trans ?_
    have hnames := h.groupedNames_perm.map (Sql.Expr.column none)
    rwa [List.map_map] at hnames
  have hempty : ordered = [] ↔ r.rollup = [] := by
    rw [← List.length_eq_zero_iff, hperm.length_eq, List.length_eq_zero_iff, Request.rollupGroups,
      List.map_eq_nil_iff]
  refine ⟨hcovers, hcovers.nodup_iff.mpr ?_, fun hnone => ?_, fun hsome => ?_,
    ⟨ordered, hperm, h.rollsUpGroups_of_arguments hperm hargs⟩, h.flatten_arguments⟩
  · have hkeys : (p.grouping.grouped.map DimensionColumn.key).Nodup :=
      h.keys_nodup.sublist (List.filter_sublist.map _)
    refine List.Nodup.map (fun a b hab => by injection hab) (h.groupedNames_perm.nodup_iff.mp ?_)
    rw [DimensionColumn.map_aliasName]
    exact hkeys.map aliasFor_injective
  · rw [hempty.mpr hnone] at hentries
    exact ⟨_, hentries.trans (List.append_nil _)⟩
  · obtain ⟨group, rest, hordered⟩ := List.exists_cons_of_ne_nil (mt hempty.mp hsome)
    rw [hordered] at hentries
    exact ⟨_, _, hentries⟩

theorem groupsDeclared_comparisonQuery (h : Resolved r settings p) (collapsed : List String)
    (c : Comparison) : (p.comparisonQuery collapsed c).GroupsDeclared r := by
  refine ⟨p.declared.columns.map DimensionColumn.aliasName, ?_, ?_, ?_⟩
  · rw [DimensionColumn.map_aliasName]
    exact h.keys_declared_perm.map aliasFor
  · rw [DimensionColumn.map_aliasName]
    exact h.keys_declared_nodup.map aliasFor_injective
  · rw [comparisonQuery, h.grouped_declared, Grouping.plainEntries, List.map_map]
    rfl

end Plan.Resolved

/-! ## Statements -/

/-- GROUP BY of the base query of every statement of a compiled request covers the grouped columns and rolls
up the request's groups, and every comparison query is grouped by the declared columns. -/
theorem statements_realize_groups {r : Request} {settings : Settings} {c : Compilation}
    (h : Compilation.ofRequest r settings = .ok c) :
    ∀ s ∈ c.statements, s.query.base.RealizesGroups r c.rollupKeys ∧
      (r.references ≠ [] → List.Forall₂ (fun x j => ∃ sub, j.source = .derived sub (Reference.name x) ∧
        Sql.Query.GroupsDeclared r sub) r.references s.query.joins) := by
  obtain ⟨p, hp, rfl⟩ := Compilation.ofRequest_eq_ok.mp h
  intro s hs
  rw [Compilation.query_of_mem hs, p.base_query]
  refine ⟨hp.realizesGroups_baseQuery _, fun hrefs => ?_⟩
  rw [hp.query_eq_comparedQuery hrefs]
  refine hp.forall₂_joins fun x c hbind => ?_
  obtain ⟨rfl, -⟩ := Comparison.bind_eq_ok.mp hbind
  exact ⟨_, rfl, hp.groupsDeclared_comparisonQuery s.kind.collapsed c⟩

/-- Clicks by country, region, day and time, which are compared with those of the week before: the day is
rolled up, and so are the region and the country together. -/
def Request.regionsByTime : Request where
  table := "clicks"
  joins := []
  dimensions := [.plain .country, .plain ⟨"region", .text, .column none "region", by decide⟩, .plain .day,
    .plain .time]
  metrics := [⟨.clicks⟩]
  filters := []
  references := [⟨.weekOverWeek, .delta, "at"⟩]
  rollup := [.single "day", .composite ["region", "country"]]
  limit := none
  offset := none

theorem statements_realize_groups_regionsByTime :
    ∃ c, Compilation.ofRequest .regionsByTime .default = .ok c ∧ c.statements.length = 1 ∧
      c.rollupKeys = ["country", "region", "day"] ∧
      ∀ s ∈ c.statements, s.query.base.RealizesGroups .regionsByTime ["country", "region", "day"] ∧
        List.Forall₂ (fun x j => ∃ sub, j.source = .derived sub (Reference.name x) ∧
          Sql.Query.GroupsDeclared .regionsByTime sub) Request.regionsByTime.references s.query.joins := by
  have hkeys : (Compilation.ofRequest .regionsByTime .default).toOption.map
      (fun c => (c.statements.length, c.rollupKeys)) = some (1, ["country", "region", "day"]) := by
    decide +kernel
  obtain ⟨c, hc, hkeys⟩ := exists_of_map_toOption hkeys
  obtain ⟨hlength, hrolled⟩ := Prod.mk.inj hkeys
  refine ⟨c, hc, hlength, hrolled, fun s hs => ?_⟩
  obtain ⟨hbase, hcompared⟩ := statements_realize_groups hc s hs
  rw [hrolled] at hbase
  exact ⟨hbase, hcompared (by decide)⟩

/-- The arguments of ROLLUP are the request's groups, each by its first column among the dimension columns,
and so they are in request order exactly if the groups are met in this order. -/
theorem rollup_arguments_as_met {r : Request} {settings : Settings} {c : Compilation}
    (h : Compilation.ofRequest r settings = .ok c) :
    ∃ ordered : List (List String), ordered.Perm r.rollupGroups ∧ ordered.Pairwise (MetFirst r.columnKeys) ∧
      ∀ s ∈ c.statements,
        s.query.base.groups.flatMap Sql.GroupItem.arguments = ordered.map r.rollupArgument ∧
        (s.query.base.RollsUpGroups r.rollupGroups ↔ r.rollupGroups.Pairwise (MetFirst r.columnKeys)) := by
  obtain ⟨p, hp, rfl⟩ := Compilation.ofRequest_eq_ok.mp h
  obtain ⟨ordered, hperm, hsorted, hargs⟩ := hp.exists_rollup_order
  refine ⟨ordered, hperm, hsorted, fun s hs => ?_⟩
  rw [Compilation.query_of_mem hs, p.base_query]
  exact ⟨hargs, hp.rollsUpGroups_iff hperm hsorted hargs⟩

/-- Clicks by country and day, of which the request rolls up the day first. -/
def Request.daysRolledUpFirst : Request where
  table := "clicks"
  joins := []
  dimensions := [.plain .country, .plain .day]
  metrics := [⟨.clicks⟩]
  filters := []
  references := []
  rollup := [.single "day", .single "country"]
  limit := none
  offset := none

/-- The country is the first argument of ROLLUP, and the day is the second. -/
theorem arguments_daysRolledUpFirst :
    ∃ c, Compilation.ofRequest .daysRolledUpFirst .default = .ok c ∧ c.statements.length = 1 ∧
      ∀ s ∈ c.statements, (s.query.base.groups.flatMap Sql.GroupItem.arguments).map
        (List.flatMap Sql.Expr.columns) = [[(none, "$country")], [(none, "$day")]] := by
  have harguments : (Compilation.ofRequest .daysRolledUpFirst .default).toOption.map (fun c =>
      decide (c.statements.length = 1 ∧
        ∀ s ∈ c.statements, (s.query.base.groups.flatMap Sql.GroupItem.arguments).map
          (List.flatMap Sql.Expr.columns) = [[(none, "$country")], [(none, "$day")]])) = some true := by
    decide +kernel
  obtain ⟨c, hc, harguments⟩ := exists_of_map_toOption harguments
  exact ⟨c, hc, of_decide_eq_true harguments⟩

theorem rollup_arguments_as_met_daysRolledUpFirst :
    ∃ c, Compilation.ofRequest .daysRolledUpFirst .default = .ok c ∧ c.statements.length = 1 ∧
      Request.daysRolledUpFirst.columnKeys = ["country", "day"] ∧
      ∃ ordered : List (List String), ordered.Perm [["day"], ["country"]] ∧
        ordered.Pairwise (MetFirst ["country", "day"]) ∧
        ∀ s ∈ c.statements, s.query.base.groups.flatMap Sql.GroupItem.arguments =
          ordered.map Request.daysRolledUpFirst.rollupArgument := by
  obtain ⟨c, hc, hlength, -⟩ := arguments_daysRolledUpFirst
  obtain ⟨ordered, hperm, hsorted, harguments⟩ := rollup_arguments_as_met hc
  exact ⟨c, hc, hlength, rfl, ordered, hperm, hsorted, fun s hs => (harguments s hs).1⟩

/-- The arguments of ROLLUP do not follow the request. -/
theorem days_not_first_daysRolledUpFirst :
    ∃ c, Compilation.ofRequest .daysRolledUpFirst .default = .ok c ∧ c.statements.length = 1 ∧
      ∀ s ∈ c.statements, ¬ s.query.base.RollsUpGroups Request.daysRolledUpFirst.rollupGroups := by
  obtain ⟨c, hc, hlength, harguments⟩ := arguments_daysRolledUpFirst
  refine ⟨c, hc, hlength, fun s hs hrolls => ?_⟩
  have hargs := harguments s hs
  obtain ⟨arg, args, hfirst, -, heq⟩ := List.forall₂_cons_right_iff.mp hrolls
  rw [heq, List.map_cons, List.cons.injEq, List.perm_singleton.mp hfirst] at hargs
  exact absurd hargs.1 (by decide)

end CubeSql
