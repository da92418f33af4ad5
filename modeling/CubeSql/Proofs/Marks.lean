import CubeSql.Proofs.Grouping
import CubeSql.Proofs.Headings

/-!
# Rollup groups that can be marked

Among columns of different keys of which none is rolled up before, the rollup groups can be marked exactly if
each of them names something, all that they name are grouped columns, and no key is named twice.
-/

namespace CubeSql.Grouping

theorem headings_of_remarked {columns marked : List DimensionColumn}
    (h : List.Forall₂ Remarked columns marked) :
    marked.map DimensionColumn.heading = columns.map DimensionColumn.heading :=
  (map_eq_of_forall₂ h fun d m hdm => by rw [hdm]; rfl).symm

/-! ## One key -/

/-- A key can be marked exactly if it is that of a grouped column that is not rolled up yet. -/
theorem exists_mark_iff {key : String} {columns : List DimensionColumn}
    (hn : (columns.map DimensionColumn.key).Nodup) :
    (∃ marked, mark columns key = .ok marked) ↔
      (key, true) ∈ columns.map DimensionColumn.heading ∧ key ∉ rolled columns := by
  induction columns with
  | nil => simp [mark]
  | cons d rest ih =>
    obtain ⟨hd, hrest⟩ := List.nodup_cons.mp hn
    have hhead : (key, true) = d.heading ↔ d.key = key ∧ d.grouped = true := by
      rw [DimensionColumn.heading, Prod.mk.injEq, eq_comm, @eq_comm _ true]
    rw [List.map_cons, List.mem_cons, hhead, rolled_cons]
    unfold mark
    by_cases hkey : d.key = key ∧ d.grouped = true
    · -- The columns after this one have other keys, so its flag alone decides.
      have hother : key ∉ rolled rest := by
        intro hmem
        obtain ⟨c, hc, hck⟩ := List.mem_map.mp hmem
        refine hd (List.mem_map.mpr ⟨c, (List.mem_filter.mp hc).1, ?_⟩)
        rw [hck, hkey.1]
      rw [if_pos hkey]
      cases hrolled : d.rollup with
      | true => simp [hkey.1]
      | false => simp [hkey, hother]
    · have hmem : key ∈ (if d.rollup = true then d.key :: rolled rest else rolled rest) ↔
          (d.rollup = true ∧ key = d.key) ∨ key ∈ rolled rest := by
        cases d.rollup <;> simp
      rw [if_neg hkey, hmem]
      simp only [bind_eq_ok, pure_eq_ok, hkey, false_or, not_or]
      constructor
      · rintro ⟨_, rest', hrest', rfl⟩
        obtain ⟨hgrouped, hnew⟩ := (ih hrest).mp ⟨rest', hrest'⟩
        refine ⟨hgrouped, ?_, hnew⟩
        rintro ⟨-, rfl⟩
        refine hd ?_
        rw [← DimensionColumn.map_fst_heading]
        exact List.mem_map_of_mem hgrouped
      · rintro ⟨hgrouped, -, hnew⟩
        obtain ⟨rest', hrest'⟩ := (ih hrest).mpr ⟨hgrouped, hnew⟩
        exact ⟨_, rest', hrest', rfl⟩

/-! ## All keys -/

/-- Keys can be marked one after another exactly if each of them can and they differ. -/
theorem exists_marks_iff {keys : List String} {columns : List DimensionColumn}
    (hn : (columns.map DimensionColumn.key).Nodup) :
    (∃ marked, keys.foldlM mark columns = .ok marked) ↔
      (∀ key ∈ keys, (key, true) ∈ columns.map DimensionColumn.heading) ∧ keys.Nodup ∧
        ∀ key ∈ keys, key ∉ rolled columns := by
  induction keys generalizing columns with
  | nil => simp
  | cons key keys ih =>
    -- A mark leaves the headings, and the key is rolled up from then on.
    have hstep : ∀ marked, mark columns key = .ok marked →
        ((∃ final, keys.foldlM mark marked = .ok final) ↔
          (∀ key ∈ keys, (key, true) ∈ columns.map DimensionColumn.heading) ∧ keys.Nodup ∧
            ∀ other ∈ keys, other ≠ key ∧ other ∉ rolled columns) := by
      intro marked hmark
      have hheadings := headings_of_remarked (remarked_of_mark hmark)
      have hn' : (marked.map DimensionColumn.key).Nodup := by
        rw [← DimensionColumn.map_fst_heading, hheadings, DimensionColumn.map_fst_heading]
        exact hn
      rw [ih hn', hheadings]
      simp only [(rolled_of_mark hmark).mem_iff, List.mem_cons, not_or]
    rw [List.foldlM_cons, List.forall_mem_cons, List.forall_mem_cons, List.nodup_cons]
    simp only [bind_eq_ok]
    constructor
    · rintro ⟨final, marked, hmark, hrun⟩
      obtain ⟨hgrouped, hnew⟩ := (exists_mark_iff hn).mp ⟨marked, hmark⟩
      obtain ⟨hall, hnodup, hother⟩ := (hstep marked hmark).mp ⟨final, hrun⟩
      exact ⟨⟨hgrouped, hall⟩, ⟨fun hmem => (hother key hmem).1 rfl, hnodup⟩, hnew,
        fun other hmem => (hother other hmem).2⟩
    · rintro ⟨⟨hgrouped, hall⟩, ⟨hkey, hnodup⟩, hnew, hother⟩
      obtain ⟨marked, hmark⟩ := (exists_mark_iff hn).mpr ⟨hgrouped, hnew⟩
      have hdistinct : ∀ other ∈ keys, other ≠ key := fun other hmem heq => hkey (heq ▸ hmem)
      obtain ⟨final, hrun⟩ := (hstep marked hmark).mpr
        ⟨hall, hnodup, fun other hmem => ⟨hdistinct other hmem, hother other hmem⟩⟩
      exact ⟨final, marked, hmark, hrun⟩

/-- Marking groups is marking their keys, if none of the groups is empty. -/
theorem foldlM_markGroup {rollup : List RollupGroup} {columns marked : List DimensionColumn} :
    rollup.foldlM markGroup columns = .ok marked ↔
      (∀ g ∈ rollup, g.keys ≠ []) ∧ (rollup.flatMap RollupGroup.keys).foldlM mark columns = .ok marked := by
  induction rollup generalizing columns with
  | nil => simp
  | cons g rollup ih =>
    have hgroup : ∀ next, markGroup columns g = .ok next ↔
        g.keys ≠ [] ∧ g.keys.foldlM mark columns = .ok next := by
      intro next
      unfold markGroup
      split_ifs with hempty <;> simp_all
    rw [List.foldlM_cons, List.flatMap_cons, List.foldlM_append, List.forall_mem_cons]
    simp only [bind_eq_ok, hgroup, ih]
    constructor
    · rintro ⟨next, ⟨hne, hnext⟩, hall, hrun⟩
      exact ⟨⟨hne, hall⟩, next, hnext, hrun⟩
    · rintro ⟨⟨hne, hall⟩, next, hnext, hrun⟩
      exact ⟨next, ⟨hne, hnext⟩, hall, hrun⟩

theorem exists_ofRollup_iff {columns : List DimensionColumn} {rollup : List RollupGroup}
    (hn : (columns.map DimensionColumn.key).Nodup) (hnone : ∀ c ∈ columns, c.rollup = false) :
    (∃ g, ofRollup columns rollup = .ok g) ↔ (∀ g ∈ rollup, g.keys ≠ []) ∧
      (∀ key ∈ rollup.flatMap RollupGroup.keys, (key, true) ∈ columns.map DimensionColumn.heading) ∧
        (rollup.flatMap RollupGroup.keys).Nodup := by
  have hmarks : (∃ marked, (rollup.flatMap RollupGroup.keys).foldlM mark columns = .ok marked) ↔
      (∀ key ∈ rollup.flatMap RollupGroup.keys, (key, true) ∈ columns.map DimensionColumn.heading) ∧
        (rollup.flatMap RollupGroup.keys).Nodup := by
    simp [exists_marks_iff hn, rolled_eq_nil hnone]
  simp only [← hmarks, ofRollup, bind_eq_ok, pure_eq_ok, foldlM_markGroup]
  constructor
  · rintro ⟨g, marked, ⟨hne, hmarked⟩, -⟩
    exact ⟨hne, marked, hmarked⟩
  · rintro ⟨hne, marked, hmarked⟩
    exact ⟨_, marked, ⟨hne, hmarked⟩, rfl⟩

/-- The rollup groups leave the headings, in some order. -/
theorem headings_of_ofRollup {columns : List DimensionColumn} {rollup : List RollupGroup} {g : Grouping}
    (h : ofRollup columns rollup = .ok g) :
    (g.columns.map DimensionColumn.heading).Perm (columns.map DimensionColumn.heading) := by
  obtain ⟨marked, hmarked, hperm⟩ := perm_of_ofRollup h
  rw [← headings_of_remarked hmarked]
  exact hperm.map _

end CubeSql.Grouping
