import CubeSql.Plan.Grouping
import CubeSql.Proofs.Clauses
import CubeSql.Proofs.Success

/-!
# Ordering and grouping lose nothing

Planning the rollup groups moves columns and sets rollup flags, and does nothing else to them. GROUP BY
names every grouped column once, whether plainly or in a subtotal, and ORDER BY likewise.
-/

namespace CubeSql

/-- The entry of ROLLUP, if there is anything to roll up. -/
def Sql.rollupOf : List (List Expr) → List GroupItem
  | [] => []
  | args => [.rollup args]

namespace Grouping

/-- Among columns of different keys, the key of a column tells whether it has a property. -/
theorem key_mem_filter_iff {columns : List DimensionColumn} {p : DimensionColumn → Bool}
    (hn : (columns.map DimensionColumn.key).Nodup) {c : DimensionColumn} (hc : c ∈ columns) :
    c.key ∈ (columns.filter p).map DimensionColumn.key ↔ p c = true := by
  constructor
  · intro hmem
    obtain ⟨c', hc', hkey⟩ := List.mem_map.mp hmem
    obtain ⟨hc', hp⟩ := List.mem_filter.mp hc'
    have heq : c' = c := List.inj_on_of_nodup_map hn hc' hc hkey
    rwa [heq] at hp
  · intro hp
    exact List.mem_map_of_mem (List.mem_filter.mpr ⟨hc, hp⟩)

/-- The keys of the columns with a property are those among all keys that have it. -/
theorem map_key_filter {columns : List DimensionColumn} {p : DimensionColumn → Bool} {keys : List String}
    (h : ∀ c ∈ columns, p c = true ↔ c.key ∈ keys) :
    (columns.filter p).map DimensionColumn.key =
      (columns.map DimensionColumn.key).filter (· ∈ keys) := by
  rw [List.filter_map]
  congr 1
  refine List.filter_congr fun c hc => ?_
  rw [Bool.eq_iff_iff, h c hc]
  simp

/-! ## Marks -/

/-- The column with its rollup flag set or not. -/
def Remarked (d m : DimensionColumn) : Prop := m = { d with rollup := m.rollup }

theorem Remarked.refl (d : DimensionColumn) : Remarked d d := rfl

theorem Remarked.trans {a b c : DimensionColumn} (h₁ : Remarked a b) (h₂ : Remarked b c) :
    Remarked a c := by
  unfold Remarked at *
  rw [h₂, h₁]

theorem remarked_of_mark {key : String} : ∀ {columns marked : List DimensionColumn},
    mark columns key = .ok marked → List.Forall₂ Remarked columns marked := by
  intro columns
  induction columns with
  | nil =>
    intro marked h
    cases h
  | cons d rest ih =>
    intro marked h
    unfold mark at h
    split_ifs at h with hkey hrolled
    · cases h
      exact .cons rfl (List.forall₂_same.mpr fun c _ => .refl c)
    · simp only [bind_eq_ok, pure_eq_ok] at h
      obtain ⟨rest', hrest, rfl⟩ := h
      exact .cons (.refl d) (ih hrest)

/-- Columns remarked twice are remarked. -/
theorem remarked_trans {a b c : List DimensionColumn} (h₁ : List.Forall₂ Remarked a b)
    (h₂ : List.Forall₂ Remarked b c) : List.Forall₂ Remarked a c := by
  induction h₁ generalizing c with
  | nil => exact h₂
  | cons hab _ ih =>
    obtain ⟨m, ms, hbm, hms, rfl⟩ := List.forall₂_cons_left_iff.mp h₂
    exact .cons (hab.trans hbm) (ih hms)

theorem remarked_of_marks {keys : List String} {columns marked : List DimensionColumn}
    (h : keys.foldlM mark columns = .ok marked) : List.Forall₂ Remarked columns marked :=
  foldlM_keeps (P := List.Forall₂ Remarked columns)
    (fun _ _ _ hmark hs => remarked_trans hs (remarked_of_mark hmark)) h
    (List.forall₂_same.mpr fun c _ => .refl c)

theorem remarked_of_markGroup {g : RollupGroup} {columns marked : List DimensionColumn}
    (h : markGroup columns g = .ok marked) : List.Forall₂ Remarked columns marked := by
  unfold markGroup at h
  split_ifs at h
  exact remarked_of_marks h

/-- The keys of the rolled up columns. -/
def rolled (columns : List DimensionColumn) : List String :=
  (columns.filter (·.rollup)).map DimensionColumn.key

theorem rolled_cons (d : DimensionColumn) (rest : List DimensionColumn) :
    rolled (d :: rest) = if d.rollup then d.key :: rolled rest else rolled rest := by
  cases h : d.rollup <;> simp [rolled, h]

theorem rolled_eq_nil {columns : List DimensionColumn} (h : ∀ c ∈ columns, c.rollup = false) :
    rolled columns = [] := by
  rw [rolled, List.filter_eq_nil_iff.mpr fun c hc => by simp [h c hc]]
  rfl

/-- A mark rolls up one more column, that of its key. -/
theorem rolled_of_mark {key : String} : ∀ {columns marked : List DimensionColumn},
    mark columns key = .ok marked → (rolled marked).Perm (key :: rolled columns) := by
  intro columns
  induction columns with
  | nil =>
    intro marked h
    cases h
  | cons d rest ih =>
    intro marked h
    unfold mark at h
    split_ifs at h with hkey hrolled
    · cases h
      rw [rolled_cons, rolled_cons, if_pos rfl, if_neg hrolled, ← hkey.1]
    · -- The mark is on a later column, and the first one keeps its flag.
      simp only [bind_eq_ok, pure_eq_ok] at h
      obtain ⟨rest', hrest, rfl⟩ := h
      rw [rolled_cons, rolled_cons]
      split_ifs
      · exact ((ih hrest).cons d.key).trans (List.Perm.swap key d.key _)
      · exact ih hrest

/-- Marking a group rolls up the columns of its keys. -/
theorem rolled_of_markGroup {g : RollupGroup} {columns marked : List DimensionColumn}
    (h : markGroup columns g = .ok marked) : (rolled marked).Perm (g.keys ++ rolled columns) := by
  unfold markGroup at h
  split_ifs at h
  have hmarks := foldlM_collects rolled (fun key => [key])
    (fun _ _ _ hmark => rolled_of_mark hmark) h
  rwa [List.flatMap_singleton'] at hmarks

/-! ## Order -/

theorem flaggedLast_perm (columns : List DimensionColumn) : (flaggedLast columns).Perm columns :=
  List.perm_append_comm.trans (List.filter_append_perm _ _)

/-- Only what is rolled up is in a rollup group. -/
theorem rollup_of_groupOf? {groups : List (List String)} {d : DimensionColumn}
    (h : (groupOf? groups d).isSome = true) : d.rollup = true := by
  by_contra hnot
  simp [groupOf?, hnot] at h

/-- What is not flagged is in no rollup group. -/
theorem groupOf?_eq_none {groups : List (List String)} {d : DimensionColumn} (h : d.isFlagged = false) :
    groupOf? groups d = none := by
  have hrollup : d.rollup = false := (Bool.or_eq_false_iff.mp h).2
  simp [groupOf?, hrollup]

theorem runs_alone {groups : List (List String)} {d : DimensionColumn} (h : groupOf? groups d = none)
    (rest : List DimensionColumn) : runs groups (d :: rest) = [d] :: runs groups rest := by
  rw [runs, h]

theorem runs_led {groups : List (List String)} {d : DimensionColumn} {g : Nat}
    (h : groupOf? groups d = some g) (rest : List DimensionColumn) :
    runs groups (d :: rest) = (d :: rest.filter (groupOf? groups · == some g)) ::
      runs groups (rest.filter (groupOf? groups · != some g)) := by
  rw [runs, h]

/-- Induction along the runs: the first column is a run of its own, or it leads the members of its group. -/
theorem runs_induction (groups : List (List String)) {motive : List DimensionColumn → Prop}
    (nil : motive [])
    (alone : ∀ d rest, groupOf? groups d = none → motive rest → motive (d :: rest))
    (led : ∀ d rest g, groupOf? groups d = some g →
      motive (rest.filter (groupOf? groups · != some g)) → motive (d :: rest))
    (columns : List DimensionColumn) : motive columns := by
  induction columns using runs.induct groups with
  | case1 => exact nil
  | case2 d rest hgroup ih => exact alone d rest hgroup ih
  | case3 d rest g hgroup hlt ih => exact led d rest g hgroup (by simpa using ih)

theorem runs_ne_nil (groups : List (List String)) (columns : List DimensionColumn) :
    ∀ members ∈ runs groups columns, members ≠ [] := by
  induction columns using runs_induction groups with
  | nil =>
    rw [runs]
    exact fun members hm => absurd hm List.not_mem_nil
  | alone d rest hgroup ih =>
    rw [runs_alone hgroup]
    exact List.forall_mem_cons.mpr ⟨List.cons_ne_nil _ _, ih⟩
  | led d rest g hgroup ih =>
    rw [runs_led hgroup]
    exact List.forall_mem_cons.mpr ⟨List.cons_ne_nil _ _, ih⟩

theorem gather_perm (groups : List (List String)) (columns : List DimensionColumn) :
    (gather groups columns).Perm columns := by
  unfold gather
  induction columns using runs_induction groups with
  | nil => simp [runs]
  | alone d rest hgroup ih =>
    rw [runs_alone hgroup]
    exact ih.cons d
  | led d rest g hgroup ih =>
    rw [runs_led hgroup]
    exact ((ih.append_left _).trans (List.filter_append_perm _ _)).cons d

/-- The rollup groups roll up the columns that they name, and the columns are ordered by what is marked. -/
theorem exists_marked_of_ofRollup {columns : List DimensionColumn} {rollup : List RollupGroup}
    {g : Grouping} (h : ofRollup columns rollup = .ok g) :
    ∃ marked, List.Forall₂ Remarked columns marked ∧
      (rolled marked).Perm (rollup.flatMap RollupGroup.keys ++ rolled columns) ∧
      g = ⟨gather (rollup.map RollupGroup.keys) (flaggedLast marked), rollup.map RollupGroup.keys⟩ := by
  simp only [ofRollup, bind_eq_ok, pure_eq_ok] at h
  obtain ⟨marked, hmarked, rfl⟩ := h
  refine ⟨marked, ?_, ?_, rfl⟩
  · exact foldlM_keeps (P := List.Forall₂ Remarked columns)
      (fun _ _ _ hmark hs => remarked_trans hs (remarked_of_markGroup hmark)) hmarked
      (List.forall₂_same.mpr fun c _ => .refl c)
  · exact foldlM_collects rolled RollupGroup.keys (fun _ _ _ hgroup => rolled_of_markGroup hgroup) hmarked

/-- The rollup groups decide the order of the columns and their rollup flags. -/
theorem perm_of_ofRollup {columns : List DimensionColumn} {rollup : List RollupGroup} {g : Grouping}
    (h : ofRollup columns rollup = .ok g) :
    ∃ marked, List.Forall₂ Remarked columns marked ∧ g.columns.Perm marked := by
  obtain ⟨marked, hmarked, -, rfl⟩ := exists_marked_of_ofRollup h
  exact ⟨marked, hmarked, (gather_perm _ _).trans (flaggedLast_perm _)⟩

/-- Of columns that are not rolled up before, the rollup groups roll up those that they name, each once. -/
theorem rollupKeys_of_ofRollup {columns : List DimensionColumn} {rollup : List RollupGroup} {g : Grouping}
    (h : ofRollup columns rollup = .ok g) (hnone : ∀ c ∈ columns, c.rollup = false) :
    g.rollupKeys.Perm (rollup.flatMap RollupGroup.keys) := by
  obtain ⟨marked, -, hrolled, rfl⟩ := exists_marked_of_ofRollup h
  rw [rolled_eq_nil hnone, List.append_nil] at hrolled
  have hordered : (gather (rollup.map RollupGroup.keys) (flaggedLast marked)).Perm marked :=
    (gather_perm _ _).trans (flaggedLast_perm _)
  exact ((hordered.filter _).map _).trans hrolled

/-! ## Clauses -/

/-- The columns outside all rollup groups are grouped by plainly, and the others by a ROLLUP after them. -/
theorem rollupEntries_eq (g : Grouping) :
    g.rollupEntries = plainEntries (g.grouped.filter fun d => (groupOf? g.groups d).isNone) ++
      Sql.rollupOf ((runs g.groups (g.grouped.filter fun d => (groupOf? g.groups d).isSome)).map
        (List.map (aliasRef none))) := by
  rw [rollupEntries]
  cases runs g.groups (g.grouped.filter fun d => (groupOf? g.groups d).isSome) <;> rfl

theorem exprs_plainEntries (columns : List DimensionColumn) :
    (plainEntries columns).flatMap Sql.GroupItem.exprs = columns.map (aliasRef none) := by
  induction columns with
  | nil => rfl
  | cons d columns ih =>
    simp only [plainEntries, List.map_cons, List.flatMap_cons] at ih ⊢
    rw [ih]
    rfl

/-- GROUP BY names every grouped column once. -/
theorem exprs_rollupEntries (g : Grouping) :
    (g.rollupEntries.flatMap Sql.GroupItem.exprs).Perm (g.grouped.map (aliasRef none)) := by
  have hruns := gather_perm g.groups (g.grouped.filter fun d => (groupOf? g.groups d).isSome)
  have hsplit : (g.grouped.filter (fun d => (groupOf? g.groups d).isNone) ++
      g.grouped.filter (fun d => (groupOf? g.groups d).isSome)).Perm g.grouped := by
    simpa using List.filter_append_perm (fun d => (groupOf? g.groups d).isNone) g.grouped
  unfold gather at hruns
  unfold rollupEntries
  simp only [List.flatMap_append, exprs_plainEntries]
  refine List.Perm.trans ?_ (hsplit.map (aliasRef none))
  rw [List.map_append]
  refine List.Perm.append_left _ (List.Perm.trans ?_ (hruns.map (aliasRef none)))
  cases runs g.groups (g.grouped.filter fun d => (groupOf? g.groups d).isSome) with
  | nil => exact List.Perm.refl _
  | cons arg args => simp [Sql.GroupItem.exprs, List.map_flatten]

end Grouping

end CubeSql
