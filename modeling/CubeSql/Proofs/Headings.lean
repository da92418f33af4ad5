import CubeSql.Proofs.Resolvable
import CubeSql.Proofs.Split

/-!
# Headings

Of the columns that splits leave, the key and whether the column is grouped by follow from the declared
columns and the splits alone, whatever the columns are computed from. Splits can be applied exactly if each of
them can be resolved and no two of them stand in place of one field.
-/

namespace CubeSql

/-- The key of a column, and whether it is grouped by. -/
abbrev Heading := String × Bool

/-- The heading of a column. -/
def DimensionColumn.heading (d : DimensionColumn) : Heading := (d.key, d.grouped)

theorem DimensionColumn.map_fst_heading (columns : List DimensionColumn) :
    (columns.map heading).map Prod.fst = columns.map key := by
  rw [List.map_map]
  rfl

namespace ResultSet

/-- The key of the column for the set. -/
def setKey (s : ResultSet) : String := setName (s.filter.describe.toOption.getD "")

theorem setKey_of_describe {s : ResultSet} {text : String} (h : s.filter.describe = .ok text) :
    s.setKey = setName text := by
  rw [setKey, h]
  rfl

/-- The key in whose place the split stands, if it does. -/
def target? (s : ResultSet) : Option String :=
  if s.filter.field.definition.isAggregate then none
  else if s.replaces then some s.filter.field.key else none

theorem target?_eq_some {s : ResultSet} {key : String} : s.target? = some key ↔ s.Replaces key := by
  unfold target? Replaces
  cases s.filter.field.definition.isAggregate <;> cases s.replaces <;> simp

/-- The headings after a split: one in place of a field adds one only if there is none under the field's key,
and every other one adds that of its set. -/
def addHeading (headings : List Heading) (s : ResultSet) : List Heading :=
  if s.filter.field.definition.isAggregate then headings ++ [(s.setKey, false)]
  else if s.replaces then
    if s.filter.field.key ∈ headings.map Prod.fst then headings
    else headings ++ [(s.filter.field.key, true)]
  else headings ++ [(s.setKey, true)]

/-- The order of the headings plays no part in what is added. -/
theorem addHeading_perm {headings headings' : List Heading} (h : headings.Perm headings')
    (s : ResultSet) : (s.addHeading headings).Perm (s.addHeading headings') := by
  unfold addHeading
  simp only [(h.map Prod.fst).mem_iff]
  split_ifs
  · exact h.append_right _
  · exact h
  · exact h.append_right _
  · exact h.append_right _

/-- A split can be resolved exactly if its filter can. -/
theorem exists_isCase_iff {scope : Scope} {s : ResultSet} :
    (∃ e, s.IsCase scope e) ↔ s.filter.Fits scope := by
  rw [Filter.Fits, ← Expr.exists_lower_iff, ← Filter.exists_condition_iff]
  simp only [isCase_iff]
  constructor
  · rintro ⟨e, text, -, subject, hsubject, k, hk, -⟩
    exact ⟨⟨subject, hsubject⟩, k, hk⟩
  · rintro ⟨⟨subject, hsubject⟩, k, hk⟩
    exact ⟨_, _, Filter.describe_of_condition hk, subject, hsubject, k, hk, rfl⟩

end ResultSet

namespace SplitColumns

variable {scope : Scope} {s : ResultSet} {done done' : SplitColumns}

/-! ## One split -/

theorem map_heading_replace (f : Field) (e : Sql.Expr) (columns : List DimensionColumn) :
    (replace f e columns).map DimensionColumn.heading =
      if f.key ∈ columns.map DimensionColumn.key then columns.map DimensionColumn.heading
      else columns.map DimensionColumn.heading ++ [(f.key, true)] := by
  induction columns with
  | nil => rfl
  | cons c cs ih =>
    rw [replace_cons]
    by_cases hkey : c.key = f.key
    · rw [if_pos hkey, if_pos (by simp [hkey])]
      rfl
    · rw [if_neg hkey, List.map_cons, ih]
      by_cases hmem : f.key ∈ cs.map DimensionColumn.key
      · rw [if_pos hmem, if_pos (by simp [hmem]), List.map_cons]
      · rw [if_neg hmem, if_neg (by simpa [Ne.symm hkey] using hmem), List.map_cons, List.cons_append]

theorem headings_of_step (h : Step scope s done done') :
    (done'.columns.map DimensionColumn.heading).Perm
      (s.addHeading (done.columns.map DimensionColumn.heading)) := by
  unfold ResultSet.addHeading
  cases h with
  | @select text e hagg htext he =>
    rw [if_pos hagg, ResultSet.setKey_of_describe htext, List.map_append]
    exact List.Perm.refl _
  | replace hrep hnew he =>
    rw [if_neg (by simp [hrep.2.1]), if_pos hrep.1, DimensionColumn.map_fst_heading,
      map_heading_replace]
  | @insert text e hagg hrep htext he =>
    obtain ⟨before, after, hcols, hins⟩ :=
      insertAt_eq_append s.filter.field.key (.ofSet text e true) done.columns
    rw [if_neg (by simp [hagg]), if_neg (by simp [hrep]), ResultSet.setKey_of_describe htext, hins, hcols,
      List.map_append, List.map_append, List.map_cons]
    exact List.perm_middle.trans (List.perm_append_singleton _ _).symm

theorem replaced_of_step (h : Step scope s done done') :
    done'.replaced = s.target?.toList ++ done.replaced := by
  cases h with
  | select hagg htext he => simp [ResultSet.target?, hagg]
  | replace hrep hnew he =>
    rw [ResultSet.target?_eq_some.mpr hrep]
    rfl
  | insert hagg hrep htext he => simp [ResultSet.target?, hagg, hrep]

theorem exists_apply_iff : (∃ done', apply scope done s = .ok done') ↔
    (∃ e, s.IsCase scope e) ∧ ∀ key ∈ s.target?, key ∉ done.replaced := by
  constructor
  · rintro ⟨done', h⟩
    cases step_of_apply h with
    | select hagg htext he => exact ⟨⟨_, he⟩, by simp [ResultSet.target?, hagg]⟩
    | replace hrep hnew he =>
      rw [ResultSet.target?_eq_some.mpr hrep]
      exact ⟨⟨_, he⟩, by simpa using hnew⟩
    | insert hagg hrep htext he => exact ⟨⟨_, he⟩, by simp [ResultSet.target?, hagg, hrep]⟩
  · rintro ⟨⟨e, he⟩, hnew⟩
    obtain ⟨text, htext, subject, hsubject, k, hk, rfl⟩ := ResultSet.isCase_iff.mp he
    simp only [apply, htext, hsubject, hk, bind_eq_ok, Except.ok.injEq, exists_eq_left']
    split_ifs with hagg hrep hseen
    · exact ⟨_, rfl⟩
    · exact absurd hseen (hnew _ (ResultSet.target?_eq_some.mpr ⟨hrep, by simpa using hagg, rfl⟩))
    · exact ⟨_, rfl⟩
    · exact ⟨_, rfl⟩

/-! ## All splits -/

theorem headings_of_run {splits : List ResultSet} {final : SplitColumns} {headings : List Heading}
    (h : splits.foldlM (apply scope) done = .ok final)
    (hdone : (done.columns.map DimensionColumn.heading).Perm headings) :
    (final.columns.map DimensionColumn.heading).Perm
      (splits.foldl (fun hs s => s.addHeading hs) headings) := by
  induction splits generalizing done headings with
  | nil =>
    rw [List.foldlM_nil, pure_eq_ok] at h
    rw [← h]
    exact hdone
  | cons s splits ih =>
    rw [List.foldlM_cons, bind_eq_ok] at h
    obtain ⟨next, hnext, h⟩ := h
    exact ih h ((headings_of_step (step_of_apply hnext)).trans (s.addHeading_perm hdone))

theorem exists_run_iff {splits : List ResultSet} :
    (∃ final, splits.foldlM (apply scope) done = .ok final) ↔
      (∀ s ∈ splits, ∃ e, s.IsCase scope e) ∧
        (splits.filterMap ResultSet.target?).Nodup ∧
        ∀ key ∈ splits.filterMap ResultSet.target?, key ∉ done.replaced := by
  induction splits generalizing done with
  | nil => simp
  | cons s splits ih =>
    have htargets : (s :: splits).filterMap ResultSet.target? =
        s.target?.toList ++ splits.filterMap ResultSet.target? := by
      cases hs : s.target? <;> simp [hs]
    have hnodup : (s.target?.toList ++ splits.filterMap ResultSet.target?).Nodup ↔
        (∀ key ∈ s.target?, key ∉ splits.filterMap ResultSet.target?) ∧
          (splits.filterMap ResultSet.target?).Nodup := by
      cases s.target? <;> simp
    rw [htargets, hnodup, List.forall_mem_cons, List.forall_mem_append, List.foldlM_cons]
    simp only [bind_eq_ok, Option.mem_toList]
    constructor
    · rintro ⟨final, next, hnext, hrun⟩
      obtain ⟨he, hnew⟩ := exists_apply_iff.mp ⟨next, hnext⟩
      obtain ⟨hrest, hn, hfresh⟩ := ih.mp ⟨final, hrun⟩
      rw [replaced_of_step (step_of_apply hnext)] at hfresh
      refine ⟨⟨he, hrest⟩, ⟨fun key hkey hmem => ?_, hn⟩, hnew, fun key hkey hmem => ?_⟩
      · exact hfresh key hmem (List.mem_append_left _ (Option.mem_toList.mpr hkey))
      · exact hfresh key hkey (List.mem_append_right _ hmem)
    · rintro ⟨⟨he, hrest⟩, ⟨hdistinct, hn⟩, hnew, hfresh⟩
      obtain ⟨next, hnext⟩ := exists_apply_iff.mpr ⟨he, hnew⟩
      have hnext' : ∀ key ∈ splits.filterMap ResultSet.target?, key ∉ next.replaced := by
        intro key hkey hmem
        rw [replaced_of_step (step_of_apply hnext)] at hmem
        rcases List.mem_append.mp hmem with hmem | hmem
        · exact hdistinct key (Option.mem_toList.mp hmem) hkey
        · exact hfresh key hkey hmem
      obtain ⟨final, hrun⟩ := ih.mpr ⟨hrest, hn, hnext'⟩
      exact ⟨final, next, hnext, hrun⟩

end SplitColumns

end CubeSql
