import CubeSql.Proofs.Descriptions
import CubeSql.Proofs.Validity

/-!
# The keys of sets

A split that replaces no column adds one for its set, under a key made from the description of its predicate. Two
such splits have one key exactly if they have one description, which legible predicates of different texts do not.
A request that compiles with either of two such splits compiles with both exactly if their keys differ.
-/

namespace CubeSql

namespace ResultSet

variable {scope : Scope} {s : ResultSet}

/-- The split adds a column of its own instead of standing in place of its field. -/
def Inserts (s : ResultSet) : Prop := s.filter.field.definition.isAggregate = true ∨ s.replaces = false

instance (s : ResultSet) : Decidable s.Inserts := inferInstanceAs (Decidable (_ ∨ _))

/-- Whatever columns the split finds, it adds one under this key and leaves them as they are. -/
def Adds (scope : Scope) (s : ResultSet) (key : String) : Prop :=
  ∀ done : SplitColumns, ∃ done' before new after, SplitColumns.apply scope done s = .ok done' ∧
    done.columns = before ++ after ∧ done'.columns = before ++ new :: after ∧ new.key = key

theorem setName_inj {text text' : String} : setName text = setName text' ↔ text = text' := by
  rw [setName, setName, String.append_left_inj, String.append_right_inj]

theorem Inserts.target?_eq_none (h : s.Inserts) : s.target? = none := by
  unfold target?
  rcases h with h | h
  · rw [if_pos h]
  · rw [h]
    simp

theorem Inserts.addHeading (h : s.Inserts) : ∃ grouped, ∀ headings,
    s.addHeading headings = headings ++ [(s.setKey, grouped)] := by
  unfold ResultSet.addHeading
  by_cases hagg : s.filter.field.definition.isAggregate = true
  · exact ⟨false, fun _ => if_pos hagg⟩
  · have hrep : s.replaces = false := h.resolve_left hagg
    exact ⟨true, fun _ => by rw [if_neg hagg, if_neg (by simp [hrep])]⟩

theorem Inserts.adds (h : s.Inserts) {row : Restriction} (hrow : s.filter.resolve scope = .ok row) :
    s.Adds scope s.setKey := by
  intro done
  have hcase : ∃ e, s.IsCase scope e :=
    exists_isCase_iff.mpr (Filter.exists_resolve_iff.mp ⟨row, hrow⟩)
  obtain ⟨done', hdone⟩ : ∃ done', SplitColumns.apply scope done s = .ok done' :=
    SplitColumns.exists_apply_iff.mpr ⟨hcase, by simp [h.target?_eq_none]⟩
  cases SplitColumns.step_of_apply hdone with
  | select hagg htext he =>
    exact ⟨_, done.columns, _, [], hdone, (List.append_nil _).symm, rfl, (setKey_of_describe htext).symm⟩
  | replace hrep hnew he =>
    have htarget := h.target?_eq_none
    rw [target?_eq_some.mpr hrep] at htarget
    cases htarget
  | insert hagg hrep htext he =>
    obtain ⟨before, after, hfound, hinserted⟩ :=
      SplitColumns.insertAt_eq_append s.filter.field.key (.ofSet _ _ true) done.columns
    exact ⟨_, before, _, after, hdone, hfound, hinserted, (setKey_of_describe htext).symm⟩

end ResultSet

/-! ## Headings apart from a key -/

/-- The headings are the same but for those under the key. -/
def SameApart (key : String) (headings headings' : List Heading) : Prop :=
  (headings.filter (·.1 != key)).Perm (headings'.filter (·.1 != key))

namespace SameApart

variable {key : String} {headings headings' : List Heading}

theorem refl (key : String) (headings : List Heading) : SameApart key headings headings := List.Perm.refl _

theorem append (h : SameApart key headings headings') (more : List Heading) :
    SameApart key (headings ++ more) (headings' ++ more) := by
  unfold SameApart
  rw [List.filter_append, List.filter_append]
  exact List.Perm.append_right _ h

theorem snoc (headings : List Heading) (grouped : Bool) :
    SameApart key headings (headings ++ [(key, grouped)]) := by
  unfold SameApart
  simp

theorem mem_iff (h : SameApart key headings headings') {heading : Heading} (hne : heading.1 ≠ key) :
    heading ∈ headings ↔ heading ∈ headings' := by
  have hmem := List.Perm.mem_iff (a := heading) h
  simpa [hne] using hmem

theorem count_eq (h : SameApart key headings headings') {other : String} (hne : other ≠ key) :
    (headings.map Prod.fst).count other = (headings'.map Prod.fst).count other := by
  have hcount : ∀ l : List Heading,
      (l.map Prod.fst).count other = ((l.filter (·.1 != key)).map Prod.fst).count other := by
    intro l
    have hfilter : (l.filter (·.1 != key)).map Prod.fst = (l.map Prod.fst).filter (· != key) := by
      rw [List.filter_map]
      rfl
    rw [hfilter, List.count_filter (by simpa using hne)]
  rw [hcount headings, hcount headings']
  exact (h.map Prod.fst).count_eq other

theorem mem_keys_iff (h : SameApart key headings headings') {other : String} (hne : other ≠ key) :
    other ∈ headings.map Prod.fst ↔ other ∈ headings'.map Prod.fst := by
  rw [← List.count_pos_iff, ← List.count_pos_iff, h.count_eq hne]

theorem addHeading (h : SameApart key headings headings') (s : ResultSet) :
    SameApart key (s.addHeading headings) (s.addHeading headings') := by
  unfold ResultSet.addHeading
  by_cases hagg : s.filter.field.definition.isAggregate = true
  · rw [if_pos hagg, if_pos hagg]
    exact h.append _
  · rw [if_neg hagg, if_neg hagg]
    by_cases hrep : s.replaces = true
    · rw [if_pos hrep, if_pos hrep]
      by_cases hkey : s.filter.field.key = key
      -- Whichever of them the field is missing from, its heading is one under the key.
      · have hfilter : ∀ l : List Heading, (if s.filter.field.key ∈ l.map Prod.fst then l
            else l ++ [(s.filter.field.key, true)]).filter (·.1 != key) = l.filter (·.1 != key) := by
          intro l
          split_ifs
          · rfl
          · simp [hkey]
        unfold SameApart
        rw [hfilter, hfilter]
        exact h
      · simp only [h.mem_keys_iff hkey]
        split_ifs
        · exact h
        · exact h.append _
    · rw [if_neg hrep, if_neg hrep]
      exact h.append _

/-- Splits add the same to headings that are the same, apart from the key. -/
theorem foldl (h : SameApart key headings headings') (splits : List ResultSet) :
    SameApart key (splits.foldl (fun headings s => s.addHeading headings) headings)
      (splits.foldl (fun headings s => s.addHeading headings) headings') := by
  induction splits generalizing headings headings' with
  | nil => exact h
  | cons s splits ih => exact ih (h.addHeading s)

end SameApart

/-- Headings that are the same as others of different keys, apart from one key and apart from another, have different
keys themselves. -/
theorem keys_nodup_of_sameApart {key key' : String} (hne : key ≠ key') {first second both : List Heading}
    (hfirst : SameApart key' first both) (hsecond : SameApart key second both)
    (hn : (first.map Prod.fst).Nodup) (hn' : (second.map Prod.fst).Nodup) : (both.map Prod.fst).Nodup := by
  rw [List.nodup_iff_count_le_one] at hn hn' ⊢
  intro other
  by_cases hother : other = key
  · rw [← hfirst.count_eq (hother ▸ hne)]
    exact hn other
  · rw [← hsecond.count_eq hother]
    exact hn' other

theorem mem_of_sameApart {key key' : String} (hne : key ≠ key') {first second both : List Heading}
    (hfirst : SameApart key' first both) (hsecond : SameApart key second both) {heading : Heading}
    (h : heading ∈ first) (h' : heading ∈ second) : heading ∈ both := by
  by_cases hother : heading.1 = key
  · exact (hfirst.mem_iff (hother ▸ hne)).mp h
  · exact (hsecond.mem_iff hother).mp h'

theorem headings_kept (splits : List ResultSet) (headings : List Heading) :
    headings <+: splits.foldl (fun headings s => s.addHeading headings) headings := by
  induction splits generalizing headings with
  | nil => exact List.prefix_refl _
  | cons s splits ih =>
    have hstep : headings <+: s.addHeading headings := by
      unfold ResultSet.addHeading
      split_ifs
      · exact List.prefix_append _ _
      · exact List.prefix_refl _
      · exact List.prefix_append _ _
      · exact List.prefix_append _ _
    exact hstep.trans (ih _)

/-! ## Requests with two sets -/

namespace Request

variable {r : Request} {settings : Settings} {s s' : ResultSet} {before between after : List RequestFilter}

/-- The request with other filters. -/
def withFilters (r : Request) (filters : List RequestFilter) : Request := { r with filters := filters }

/-- The request is compiled under the settings. -/
def Compiles (r : Request) (settings : Settings) : Prop := ∃ c, Compilation.ofRequest r settings = .ok c

theorem Compiles.valid (h : r.Compiles settings) : r.Valid := by
  obtain ⟨c, hc⟩ := h
  obtain ⟨p, hp, -⟩ := Compilation.ofRequest_eq_ok.mp hc
  exact hp.valid

theorem Valid.compiles (h : r.Valid) (settings : Settings) : r.Compiles settings := by
  obtain ⟨p, hp⟩ := Plan.exists_resolved_of_valid h settings
  exact ⟨_, Compilation.ofRequest_eq_ok.mpr ⟨p, hp, rfl⟩⟩

theorem headings_withFilters (r : Request) (filters : List RequestFilter) :
    (r.withFilters filters).headings = (filters.filterMap RequestFilter.split?).foldl
      (fun headings s => s.addHeading headings) (r.dimensions.map fun d => (d.key, true)) := rfl

theorem sameApart_first (hs' : s'.Inserts) :
    SameApart s'.setKey (r.withFilters (before ++ .resultSet s :: (between ++ after))).headings
      (r.withFilters (before ++ .resultSet s :: (between ++ .resultSet s' :: after))).headings := by
  obtain ⟨grouped, hadd⟩ := hs'.addHeading
  simp only [headings_withFilters, List.filterMap_append, List.filterMap_cons, RequestFilter.split?,
    List.foldl_append, List.foldl_cons, hadd]
  exact (SameApart.snoc _ grouped).foldl _

theorem sameApart_second (hs : s.Inserts) :
    SameApart s.setKey (r.withFilters (before ++ (between ++ .resultSet s' :: after))).headings
      (r.withFilters (before ++ .resultSet s :: (between ++ .resultSet s' :: after))).headings := by
  obtain ⟨grouped, hadd⟩ := hs.addHeading
  simp only [headings_withFilters, List.filterMap_append, List.filterMap_cons, RequestFilter.split?,
    List.foldl_append, List.foldl_cons, hadd]
  exact (((SameApart.snoc _ grouped).foldl _).addHeading s').foldl _

/-- A request that compiles has different keys for its sets. -/
theorem Compiles.setKey_ne (hs : s.Inserts) (hs' : s'.Inserts)
    (h : (r.withFilters (before ++ .resultSet s :: (between ++ .resultSet s' :: after))).Compiles settings) :
    s.setKey ≠ s'.setKey := by
  obtain ⟨grouped, hadd⟩ := hs.addHeading
  obtain ⟨grouped', hadd'⟩ := hs'.addHeading
  have hn := keys_nodup_of_columnNames h.valid.columnNames_nodup
  simp only [headings_withFilters, List.filterMap_append, List.filterMap_cons, RequestFilter.split?,
    List.foldl_append, List.foldl_cons, hadd, hadd'] at hn
  have hsecond := ((headings_kept _ _).map Prod.fst).sublist.nodup hn
  rw [List.map_append, List.nodup_append] at hsecond
  have hfirst := (headings_kept (between.filterMap RequestFilter.split?)
    ((before.filterMap RequestFilter.split?).foldl (fun headings s => s.addHeading headings)
      (r.dimensions.map fun d => (d.key, true)) ++ [(s.setKey, grouped)])).subset
  have hmem := hfirst (List.mem_append_right _ List.mem_cons_self)
  exact hsecond.2.2 _ (List.mem_map_of_mem hmem) _ List.mem_cons_self

theorem columnNames_nodup_of_sameApart {key key' : String} (hne : key ≠ key') {first second both : Request}
    (hfirst : SameApart key' first.headings both.headings)
    (hsecond : SameApart key second.headings both.headings)
    (hcomputed : first.computedNames = both.computedNames)
    (hcomputed' : second.computedNames = both.computedNames) (h : first.columnNames.Nodup)
    (h' : second.columnNames.Nodup) : both.columnNames.Nodup := by
  have hkeys := keys_nodup_of_sameApart hne hfirst hsecond (keys_nodup_of_columnNames h)
    (keys_nodup_of_columnNames h')
  rw [columnNames, List.nodup_append, hcomputed] at h
  rw [columnNames, List.nodup_append, hcomputed'] at h'
  rw [columnNames, List.nodup_append]
  refine ⟨hkeys.map aliasFor_injective, h.2.1, fun name hname => ?_⟩
  obtain ⟨other, hother, rfl⟩ := List.mem_map.mp hname
  by_cases hkey : other = key
  · exact h.2.2 _ (List.mem_map_of_mem ((hfirst.mem_keys_iff (hkey ▸ hne)).mpr hother))
  · exact h'.2.2 _ (List.mem_map_of_mem ((hsecond.mem_keys_iff hkey).mpr hother))

/-- A request that is valid with either of two sets is valid with both if their keys differ. -/
theorem Valid.withBoth (hs : s.Inserts) (hs' : s'.Inserts) (hne : s.setKey ≠ s'.setKey)
    (h : (r.withFilters (before ++ .resultSet s :: (between ++ after))).Valid)
    (h' : (r.withFilters (before ++ (between ++ .resultSet s' :: after))).Valid) :
    (r.withFilters (before ++ .resultSet s :: (between ++ .resultSet s' :: after))).Valid where
  nonempty := h.nonempty
  keys_nodup := h.keys_nodup
  table_not_blank := h.table_not_blank
  joins_within := h.joins_within
  dimensions_within := h.dimensions_within
  metrics_within := h.metrics_within
  filters_fit f hf := by
    have hsplit : f ∈ before ++ .resultSet s :: (between ++ after) ∨
        f ∈ before ++ (between ++ .resultSet s' :: after) := by
      simp only [withFilters, List.mem_append, List.mem_cons] at hf ⊢
      tauto
    rcases hsplit with hf | hf
    · exact h.filters_fit f hf
    · exact h'.filters_fit f hf
  targets_nodup := by
    have htargets := h.targets_nodup
    simpa [splits, withFilters, RequestFilter.split?, List.filterMap_cons, hs.target?_eq_none,
      hs'.target?_eq_none] using htargets
  groups_nonempty := h.groups_nonempty
  rolled_grouped key hkey := mem_of_sameApart hne (sameApart_first hs') (sameApart_second hs)
    (h.rolled_grouped key hkey) (h'.rolled_grouped key hkey)
  rolled_nodup := h.rolled_nodup
  names_nodup := h.names_nodup
  dates := h.dates
  columnNames_nodup := columnNames_nodup_of_sameApart hne (sameApart_first hs') (sameApart_second hs) rfl rfl
    h.columnNames_nodup h'.columnNames_nodup

end Request

/-! ## Sets and their keys -/

/-- The keys of sets by two predicates tell them apart. -/
structure ToldApart (p p' : Sql.Expr) (key key' : String) : Prop where
  /-- The keys are the same exactly if the predicates are without quotes and qualifiers. -/
  eq_iff : key = key' ↔ p.withoutQualifiers.text .plain = p'.withoutQualifiers.text .plain
  /-- Legible predicates with different texts in any dialect have different keys. -/
  ne_of_text_ne : Sql.Legible (p.columns ++ p'.columns) (p.castTypes ++ p'.castTypes) →
    ∀ d : Sql.Dialect, p.text d.spelling ≠ p'.text d.spelling → key ≠ key'

/-- Sets under two keys are carried by one request exactly if the keys differ. -/
structure CarriedTogether (s s' : ResultSet) (key key' : String) : Prop where
  /-- No request with both sets compiles if the keys are the same. -/
  ne_of_compiles : ∀ {r : Request} {settings : Settings} {before between after : List RequestFilter},
    (r.withFilters (before ++ .resultSet s :: (between ++ .resultSet s' :: after))).Compiles settings →
      key ≠ key'
  /-- If they differ, a request that compiles with either set compiles with both. -/
  compiles_of_ne : key ≠ key' →
    ∀ {r : Request} {settings : Settings} {before between after : List RequestFilter},
      (r.withFilters (before ++ .resultSet s :: (between ++ after))).Compiles settings →
      (r.withFilters (before ++ (between ++ .resultSet s' :: after))).Compiles settings →
      (r.withFilters (before ++ .resultSet s :: (between ++ .resultSet s' :: after))).Compiles settings

/-- Two splits that replace no columns add columns for their sets. The keys of these are the same exactly if the
predicates are the same without quotes and qualifiers, which legible predicates with different texts are not; and
a request that compiles with either split compiles with both exactly if the keys differ. -/
theorem sets_told_apart {scope : Scope} {s s' : ResultSet} (hs : s.Inserts) (hs' : s'.Inserts)
    {row row' : Restriction} (hrow : s.filter.resolve scope = .ok row)
    (hrow' : s'.filter.resolve scope = .ok row') :
    ∃ key key', s.Adds scope key ∧ s'.Adds scope key' ∧
      ToldApart row.predicate row'.predicate key key' ∧ CarriedTogether s s' key key' := by
  have hkey : s.setKey = setName (row.predicate.withoutQualifiers.text .plain) :=
    ResultSet.setKey_of_describe (Filter.describe_of_resolve hrow)
  have hkey' : s'.setKey = setName (row'.predicate.withoutQualifiers.text .plain) :=
    ResultSet.setKey_of_describe (Filter.describe_of_resolve hrow')
  have hiff : s.setKey = s'.setKey ↔ row.predicate.withoutQualifiers.text .plain =
      row'.predicate.withoutQualifiers.text .plain := by
    rw [hkey, hkey', ResultSet.setName_inj]
  refine ⟨s.setKey, s'.setKey, hs.adds hrow, hs'.adds hrow', ⟨hiff, ?_⟩, ?_, ?_⟩
  · intro hlegible d hne heq
    exact hne (Filter.text_eq_of_description_eq hrow hrow' hlegible (hiff.mp heq) d)
  · intro r settings before between after h
    exact h.setKey_ne hs hs'
  · intro hne r settings before between after h h'
    exact (h.valid.withBoth hs hs' hne h'.valid).compiles settings

/-- Whether a click is by a phone, as a column of its own. -/
def ResultSet.phones : ResultSet :=
  ⟨⟨⟨"device_name", .text, .column (some "devices") "name", by decide⟩, .eq, .ofValue (.text "phone")⟩,
    none, none, false, true⟩

/-- Whether a click is of one of two months, as a column of its own. -/
def ResultSet.winterMonths : ResultSet :=
  ⟨⟨⟨"click_month", .date, .call (.dateTrunc .month) [.column none "at"], by decide⟩, .isIn,
    .ofValue (.array [.text "2024-01-01", .text "2024-02-01"])⟩, none, none, false, true⟩

theorem sets_told_apart_clicksByDay :
    ∃ row row', ResultSet.phones.Inserts ∧ ResultSet.winterMonths.Inserts ∧
      ResultSet.phones.filter.resolve ⟨"clicks", ["devices"]⟩ = .ok row ∧
      ResultSet.winterMonths.filter.resolve ⟨"clicks", ["devices"]⟩ = .ok row' ∧
      ∃ key key', ResultSet.phones.Adds ⟨"clicks", ["devices"]⟩ key ∧
        ResultSet.winterMonths.Adds ⟨"clicks", ["devices"]⟩ key' ∧ key ≠ key' ∧
        (Request.clicksByDay.withFilters [.resultSet .phones, .resultSet .winterMonths]).Compiles .default := by
  obtain ⟨row, hrow⟩ : ∃ row, ResultSet.phones.filter.resolve ⟨"clicks", ["devices"]⟩ = .ok row :=
    ⟨_, rfl⟩
  obtain ⟨row', hrow'⟩ :
      ∃ row', ResultSet.winterMonths.filter.resolve ⟨"clicks", ["devices"]⟩ = .ok row' := ⟨_, rfl⟩
  obtain ⟨key, key', hadds, hadds', htold, hcarried⟩ := sets_told_apart (by decide) (by decide) hrow hrow'
  cases hrow
  cases hrow'
  have hlegible : Sql.Legible [(some "t1", "name"), (some "t0", "at")] [] := by
    constructor <;> decide
  have hne : key ≠ key' := htold.ne_of_text_ne hlegible .bigquery (by decide)
  have hphones : (Request.clicksByDay.withFilters ([] ++ .resultSet .phones :: ([] ++ []))).Compiles .default :=
    exists_of_isOk (by decide +kernel)
  have hmonths :
      (Request.clicksByDay.withFilters ([] ++ ([] ++ .resultSet .winterMonths :: []))).Compiles .default :=
    exists_of_isOk (by decide +kernel)
  have hboth : (Request.clicksByDay.withFilters
      ([] ++ .resultSet .phones :: ([] ++ .resultSet .winterMonths :: []))).Compiles .default :=
    hcarried.compiles_of_ne hne hphones hmonths
  exact ⟨_, _, by decide, by decide, rfl, rfl, key, key', hadds, hadds', hne, hboth⟩

/-- Whether a click has the name of a phone, as a column of its own. -/
def ResultSet.namedPhone : ResultSet :=
  ⟨⟨⟨"name", .text, .column none "name", by decide⟩, .eq, .ofValue (.text "phone")⟩, none, none, false, true⟩

/-- Columns of one name in two tables have one description: the predicates differ, but the keys do not, and a
request with both sets is rejected. -/
theorem names_of_two_tables_share_a_key :
    ResultSet.namedPhone.Inserts ∧ ResultSet.phones.Inserts ∧
      (∃ row row', ResultSet.namedPhone.filter.resolve ⟨"clicks", ["devices"]⟩ = .ok row ∧
        ResultSet.phones.filter.resolve ⟨"clicks", ["devices"]⟩ = .ok row' ∧
        row.predicate.text .duckdb = "\"t0\".\"name\"='phone'" ∧
        row'.predicate.text .duckdb = "\"t1\".\"name\"='phone'") ∧
      ResultSet.namedPhone.filter.describe = .ok "name='phone'" ∧
      ResultSet.phones.filter.describe = .ok "name='phone'" ∧
      Compilation.ofRequest
        (Request.clicksByDay.withFilters [.resultSet .namedPhone, .resultSet .phones]) .default =
        .error (.duplicateAlias (aliasFor (setName "name='phone'"))) := by
  have hrejected := failure?_eq_some.mp (by decide +kernel : failure? (Compilation.ofRequest
    (Request.clicksByDay.withFilters [.resultSet .namedPhone, .resultSet .phones]) .default) =
      some (.duplicateAlias (aliasFor (setName "name='phone'"))))
  exact ⟨by decide, by decide, ⟨_, _, rfl, rfl, by decide, by decide⟩, rfl, rfl, hrejected⟩

end CubeSql
