import CubeSql.Plan.Split
import CubeSql.Proofs.Resolvable

/-!
# What splits do to the declared columns

What a split selects is a CASE of two branches (`ResultSet.IsCase`), and it does one of three things to the
columns that it finds (`SplitColumns.Step`). As long as no two columns share a key, the declared columns keep
their order, their keys and their flags through any number of splits, and a declared expression changes only
when a split stands in place of its dimension.
-/

namespace CubeSql

/-- The split stands in place of the dimension of the given key. -/
def ResultSet.Replaces (s : ResultSet) (key : String) : Prop :=
  s.replaces = true ∧ s.filter.field.definition.isAggregate = false ∧ s.filter.field.key = key

theorem Condition.sizeOf_lt_on (k : Condition) (e : Sql.Expr) : sizeOf e < sizeOf (k.on e) := by
  cases k with
  | compare op value =>
    rw [on, Sql.Expr.binary.sizeOf_spec]
    omega
  | oneOf values negated =>
    rw [on, Sql.Expr.inList.sizeOf_spec]
    omega
  | between low high =>
    rw [on, Sql.Expr.between.sizeOf_spec]
    omega
  | isNull negated =>
    rw [on, Sql.Expr.isNull.sizeOf_spec]
    omega

namespace ResultSet

/-! ## What a split selects -/

/-- What stands for the set and for its complement, where the filter of a split is described by `text`. -/
inductive Labelled (s : ResultSet) (text : String) : Option String → Option String → Prop where
  /-- Without labels both are named after the description. -/
  | described (hset : s.setLabel = none) (hcomplement : s.complementLabel = none) :
      Labelled s text (some ("set(" ++ text ++ ")")) (some ("complement(" ++ text ++ ")"))
  /-- With a label for either both stand as labelled, and the one without a label is absent. -/
  | given (h : s.setLabel ≠ none ∨ s.complementLabel ≠ none) :
      Labelled s text s.setLabel s.complementLabel

/-- The expression that a split selects: the label of the set where the condition of the filter holds of its
definition, and elsewhere the label of the complement, or what the definition gives if the complement is not
one group. -/
inductive IsCase (scope : Scope) (s : ResultSet) : Sql.Expr → Prop where
  /-- The condition is described by its text without quotes and qualifiers. -/
  | intro {k : Condition} {subject otherwise : Sql.Expr} {set complement : Option String}
      (hcondition : s.filter.condition = .ok k)
      (hsubject : s.filter.field.definition.lower scope = .ok subject)
      (hlabels : s.Labelled ((k.on s.filter.field.definition.unqualified).text .plain) set complement)
      (hgroups : s.groupsComplement = true → otherwise = .literal (.optionalText complement))
      (hkeeps : s.groupsComplement = false → otherwise = subject) :
      IsCase scope s (.case [(k.on subject, .literal (.optionalText set))] otherwise)

variable {scope : Scope} {s : ResultSet} {e e' subject : Sql.Expr}

theorem labelled_labels (s : ResultSet) (text : String) :
    s.Labelled text (s.labels text).1 (s.labels text).2 := by
  unfold labels
  split
  · next hset hcomplement => exact .described hset hcomplement
  · next hlabel =>
    refine .given (not_and_or.mp ?_)
    rintro ⟨hset, hcomplement⟩
    exact hlabel hset hcomplement

theorem Labelled.eq_labels {text : String} {set complement : Option String}
    (h : s.Labelled text set complement) : s.labels text = (set, complement) := by
  unfold labels
  cases h with
  | described hset hcomplement =>
    rw [hset, hcomplement]
    rfl
  | given h =>
    split
    · next hset hcomplement =>
      rw [hset, hcomplement] at h
      simp at h
    · rfl

theorem isCase_iff : s.IsCase scope e ↔ ∃ text, s.filter.describe = .ok text ∧
    ∃ subject, s.filter.field.definition.lower scope = .ok subject ∧
      ∃ k, s.filter.condition = .ok k ∧ s.splitExpr text k subject = e := by
  constructor
  · rintro ⟨hcondition, hsubject, hlabels, hgroups, hkeeps⟩
    refine ⟨_, Filter.describe_of_condition hcondition, _, hsubject, _, hcondition, ?_⟩
    rw [splitExpr, hlabels.eq_labels]
    cases hcomplement : s.groupsComplement with
    | true =>
      rw [hgroups hcomplement]
      rfl
    | false =>
      rw [hkeeps hcomplement]
      rfl
  · rintro ⟨text, htext, subject, hsubject, k, hcondition, rfl⟩
    rw [Filter.describe_of_condition hcondition] at htext
    cases htext
    exact .intro hcondition hsubject (labelled_labels s _) (fun h => if_pos h) (fun h => if_neg (by simp [h]))

/-- A split selects one expression. -/
theorem IsCase.unique (h : s.IsCase scope e) (h' : s.IsCase scope e') : e = e' := by
  obtain ⟨text, htext, subject, hsubject, k, hk, rfl⟩ := isCase_iff.mp h
  obtain ⟨text', htext', subject', hsubject', k', hk', rfl⟩ := isCase_iff.mp h'
  rw [htext] at htext'
  rw [hsubject] at hsubject'
  rw [hk] at hk'
  cases htext'
  cases hsubject'
  cases hk'
  rfl

/-- Outside the set a split selects a constant or what it splits. -/
theorem IsCase.exists_parts (h : s.IsCase scope e) : ∃ k subject label otherwise,
    s.filter.field.definition.lower scope = .ok subject ∧
      e = .case [(Condition.on k subject, .literal label)] otherwise ∧
      ((∃ v, otherwise = .literal v) ∨ otherwise = subject) := by
  cases h with
  | @intro k subject otherwise set complement hcondition hsubject hlabels hgroups hkeeps =>
    refine ⟨k, subject, _, otherwise, hsubject, rfl, ?_⟩
    cases hcomplement : s.groupsComplement with
    | true => exact .inl ⟨_, hgroups hcomplement⟩
    | false => exact .inr (hkeeps hcomplement)

/-- What a split selects is not what it splits. -/
theorem IsCase.ne_subject (h : s.IsCase scope e)
    (hsubject : s.filter.field.definition.lower scope = .ok subject) : e ≠ subject := by
  obtain ⟨k, subject', label, otherwise, hsubject', rfl, -⟩ := h.exists_parts
  rw [hsubject] at hsubject'
  cases hsubject'
  intro heq
  -- the subject stands in the branch, so a CASE of it is larger
  have hsize := congrArg sizeOf heq
  have hpart := k.sizeOf_lt_on subject
  simp only [Sql.Expr.case.sizeOf_spec, List.cons.sizeOf_spec, Prod.mk.sizeOf_spec] at hsize
  omega

theorem IsCase.inScope (h : s.IsCase scope e) : e.InScope scope := by
  obtain ⟨k, subject, label, otherwise, hsubject, rfl, hotherwise⟩ := h.exists_parts
  have hscope := Expr.inScope_of_lower hsubject
  intro c hc
  simp only [Sql.Expr.occurrences, Sql.Expr.occurrencesBranches, Condition.occurrences_on,
    List.append_nil, List.mem_append] at hc
  rcases hc with hc | hc
  · exact hscope c hc
  · rcases hotherwise with ⟨v, rfl⟩ | rfl
    · cases hc
    · exact hscope c hc

end ResultSet

namespace SplitColumns

/-! ## One split -/

/-- What a split does to the columns that it finds. -/
inductive Step (scope : Scope) (s : ResultSet) (done : SplitColumns) : SplitColumns → Prop where
  /-- A split by an aggregate is a column of its own, which is selected only. -/
  | select {text : String} {e : Sql.Expr} (hagg : s.filter.field.definition.isAggregate = true)
      (htext : s.filter.describe = .ok text) (he : s.IsCase scope e) :
      Step scope s done ⟨done.columns ++ [.ofSet text e false], done.replaced⟩
  /-- A split stands in place of the field's column, at most once for each field. -/
  | replace {e : Sql.Expr} (hrep : s.Replaces s.filter.field.key)
      (hnew : s.filter.field.key ∉ done.replaced) (he : s.IsCase scope e) :
      Step scope s done
        ⟨SplitColumns.replace s.filter.field e done.columns, s.filter.field.key :: done.replaced⟩
  /-- A split stands before the field's column. -/
  | insert {text : String} {e : Sql.Expr} (hagg : s.filter.field.definition.isAggregate = false)
      (hrep : s.replaces = false) (htext : s.filter.describe = .ok text)
      (he : s.IsCase scope e) :
      Step scope s done
        ⟨insertAt s.filter.field.key (.ofSet text e true) done.columns, done.replaced⟩

theorem step_of_apply {scope : Scope} {done done' : SplitColumns} {s : ResultSet}
    (h : apply scope done s = .ok done') : Step scope s done done' := by
  simp only [apply, bind_eq_ok] at h
  obtain ⟨text, htext, subject, hsubject, k, hk, h⟩ := h
  have he : s.IsCase scope (s.splitExpr text k subject) :=
    ResultSet.isCase_iff.mpr ⟨text, htext, subject, hsubject, k, hk, rfl⟩
  split_ifs at h with hagg hrep hseen
  · cases pure_eq_ok.mp h
    exact .select hagg htext he
  · obtain ⟨_, hthrow, -⟩ := bind_eq_ok.mp h
    exact absurd hthrow throw_ne_ok
  · cases pure_eq_ok.mp h
    exact .replace ⟨hrep, by simpa using hagg, rfl⟩ hseen he
  · cases pure_eq_ok.mp h
    exact .insert (by simpa using hagg) (by simpa using hrep) htext he

/-! ## Replaced and inserted columns -/

theorem replace_cons (f : Field) (e : Sql.Expr) (c : DimensionColumn) (cs : List DimensionColumn) :
    replace f e (c :: cs) =
      if c.key = f.key then { c with expr := e } :: cs else c :: replace f e cs := by
  by_cases h : c.key = f.key
  · simp [replace, splitAtKey, h]
  · simp only [replace, splitAtKey, bne_iff_ne, ne_eq, h, not_false_eq_true, List.takeWhile_cons_of_pos,
      List.dropWhile_cons_of_pos, if_false]
    cases hd : cs.dropWhile (·.key != f.key) <;> simp

theorem expr_of_mem_replace {f : Field} {e : Sql.Expr} {columns : List DimensionColumn}
    {c : DimensionColumn} (hc : c ∈ replace f e columns) : c.expr = e ∨ c ∈ columns := by
  induction columns with
  | nil =>
    cases List.mem_singleton.mp hc
    exact .inl rfl
  | cons d ds ih =>
    rw [replace_cons] at hc
    split_ifs at hc with hkey
    · rcases List.mem_cons.mp hc with rfl | hc
      · exact .inl rfl
      · exact .inr (List.mem_cons_of_mem _ hc)
    · rcases List.mem_cons.mp hc with rfl | hc
      · exact .inr List.mem_cons_self
      · exact (ih hc).imp_right (List.mem_cons_of_mem _)

/-- Inserting a column moves none of the others. -/
theorem insertAt_eq_append (key : String) (new : DimensionColumn) (columns : List DimensionColumn) :
    ∃ before after, columns = before ++ after ∧ insertAt key new columns = before ++ new :: after :=
  ⟨_, _, (List.takeWhile_append_dropWhile (p := (·.key != key))).symm, rfl⟩

/-- The column with its expression replaced, if it has the given key. -/
def withCase (key : String) (e : Sql.Expr) (c : DimensionColumn) : DimensionColumn :=
  if c.key = key then { c with expr := e } else c

theorem withCase_of_ne {key : String} {c : DimensionColumn} (h : c.key ≠ key) (e : Sql.Expr) :
    withCase key e c = c := if_neg h

/-- The column that a replacing split adds for a field without one. -/
def missing (f : Field) (e : Sql.Expr) (columns : List DimensionColumn) : List DimensionColumn :=
  if f.key ∈ columns.map DimensionColumn.key then [] else [⟨f.key, f.dataType, e, false, false, true⟩]

/-- Among columns of different keys, a replacing split changes the one of its field. -/
theorem replace_eq_map {columns : List DimensionColumn} (h : (columns.map DimensionColumn.key).Nodup)
    (f : Field) (e : Sql.Expr) :
    replace f e columns = columns.map (withCase f.key e) ++ missing f e columns := by
  induction columns with
  | nil => rfl
  | cons c cs ih =>
    obtain ⟨hc, hcs⟩ := List.nodup_cons.mp h
    rw [replace_cons]
    split_ifs with hkey
    · have hid : cs.map (withCase f.key e) = cs := by
        refine List.map_congr_left (g := id) (fun d hd => withCase_of_ne ?_ e) |>.trans (List.map_id _)
        rintro hdk
        exact hc (List.mem_map.mpr ⟨d, hd, hdk.trans hkey.symm⟩)
      simp [missing, withCase, hkey, hid]
    · rw [ih hcs, List.map_cons, withCase_of_ne hkey, List.cons_append]
      simp [missing, Ne.symm hkey]

/-! ## All splits -/

theorem keys_sublist_of_step {scope : Scope} {s : ResultSet} {done done' : SplitColumns}
    (h : Step scope s done done') :
    (done.columns.map DimensionColumn.key).Sublist (done'.columns.map DimensionColumn.key) := by
  cases h with
  | select hagg htext he =>
    rw [List.map_append]
    exact List.sublist_append_left _ _
  | replace hrep hnew he =>
    induction done.columns with
    | nil => exact List.nil_sublist _
    | cons c cs ih =>
      rw [replace_cons]
      split_ifs
      · exact List.Sublist.refl _
      · exact ih.cons_cons _
  | insert hagg hrep htext he =>
    obtain ⟨before, after, hcols, hins⟩ := insertAt_eq_append s.filter.field.key _ done.columns
    rw [hins, hcols]
    refine List.Sublist.map _ ((List.Sublist.refl before).append ?_)
    exact List.sublist_cons_self _ _

theorem keys_sublist_of_run {scope : Scope} {splits : List ResultSet} {done final : SplitColumns}
    (h : splits.foldlM (apply scope) done = .ok final) :
    (done.columns.map DimensionColumn.key).Sublist (final.columns.map DimensionColumn.key) :=
  foldlM_keeps (f := apply scope)
    (P := fun t => (done.columns.map DimensionColumn.key).Sublist (t.columns.map DimensionColumn.key))
    (fun _ _ _ hstep hs => hs.trans (keys_sublist_of_step (step_of_apply hstep))) h
    (List.Sublist.refl _)

/-- A declared column after splits: only its expression may differ, and where a split stands in its place it is
what this split selects. -/
structure Rewritten (scope : Scope) (splits : List ResultSet) (d c : DimensionColumn) : Prop where
  rest : c = { d with expr := c.expr }
  kept : (∀ s ∈ splits, ¬ s.Replaces d.key) → c.expr = d.expr
  replaced : ∀ s ∈ splits, s.Replaces d.key → s.IsCase scope c.expr

/-- The declared columns after splits, in their order, among columns that the splits added. -/
structure Extends (scope : Scope) (splits : List ResultSet)
    (declared columns kept added : List DimensionColumn) : Prop where
  rewritten : List.Forall₂ (Rewritten scope splits) declared kept
  sublist : kept.Sublist columns
  perm : columns.Perm (kept ++ added)
  unflagged : ∀ a ∈ added, a.totals = false ∧ a.rollup = false

variable {scope : Scope} {splits : List ResultSet} {s : ResultSet} {d c : DimensionColumn}

theorem Rewritten.snoc (h : Rewritten scope splits d c) (hs : ¬ s.Replaces d.key) :
    Rewritten scope (splits ++ [s]) d c where
  rest := h.rest
  kept hall := h.kept fun s' hs' => hall s' (List.mem_append_left _ hs')
  replaced s' hs' hrep := by
    rcases List.mem_append.mp hs' with hs' | hs'
    · exact h.replaced s' hs' hrep
    · cases List.mem_singleton.mp hs'
      exact absurd hrep hs

/-- A split that stands in place of a dimension determines its expression if no earlier one did. -/
theorem Rewritten.snoc_replacing (h : Rewritten scope splits d c) {e : Sql.Expr}
    (hs : s.Replaces d.key) (hnew : ∀ s' ∈ splits, ¬ s'.Replaces d.key)
    (he : s.IsCase scope e) : Rewritten scope (splits ++ [s]) d { c with expr := e } where
  rest := by rw [h.rest]
  kept hall := absurd hs (hall s (by simp))
  replaced s' hs' hrep := by
    rcases List.mem_append.mp hs' with hs' | hs'
    · exact absurd hrep (hnew s' hs')
    · cases List.mem_singleton.mp hs'
      exact he

theorem Rewritten.key_eq (h : Rewritten scope splits d c) : c.key = d.key := by rw [h.rest]

/-- The replaced fields are those that a split so far stands in place of. -/
def Tracks (splits : List ResultSet) (done : SplitColumns) : Prop :=
  ∀ s ∈ splits, ∀ key, s.Replaces key → key ∈ done.replaced

theorem Tracks.step {done done' : SplitColumns} (h : Tracks splits done)
    (hstep : Step scope s done done') : Tracks (splits ++ [s]) done' := by
  intro s' hs' key hrep
  rcases List.mem_append.mp hs' with hs' | hs'
  · have hkey := h s' hs' key hrep
    cases hstep with
    | select hagg htext he => exact hkey
    | replace hr hnew he => exact List.mem_cons_of_mem _ hkey
    | insert hagg hr htext he => exact hkey
  · cases List.mem_singleton.mp hs'
    obtain ⟨hr', hagg', rfl⟩ := hrep
    cases hstep with
    | select hagg htext he => simp [hagg] at hagg'
    | replace hr hnew he => exact List.mem_cons_self
    | insert hagg hr htext he => simp [hr] at hr'

theorem unflagged_ofSet (text : String) (e : Sql.Expr) (grouped : Bool) :
    (DimensionColumn.ofSet text e grouped).totals = false ∧
      (DimensionColumn.ofSet text e grouped).rollup = false := ⟨rfl, rfl⟩

/-- One more split leaves the declared columns among the others. -/
theorem Extends.step {declared kept added : List DimensionColumn} {done done' : SplitColumns}
    (h : Extends scope splits declared done.columns kept added) (ht : Tracks splits done)
    (hn : (done.columns.map DimensionColumn.key).Nodup) (hstep : Step scope s done done') :
    ∃ kept' added', Extends scope (splits ++ [s]) declared done'.columns kept' added' := by
  cases hstep with
  | @select text e hagg htext he =>
    refine ⟨kept, added ++ [.ofSet text e false], ?_, ?_, ?_, ?_⟩
    · refine h.rewritten.imp fun d c hr => hr.snoc ?_
      rintro ⟨-, hagg', -⟩
      simp [hagg] at hagg'
    · exact h.sublist.trans (List.sublist_append_left _ _)
    · rw [← List.append_assoc]
      exact h.perm.append_right _
    · intro a ha
      rcases List.mem_append.mp ha with ha | ha
      · exact h.unflagged a ha
      · cases List.mem_singleton.mp ha
        exact unflagged_ofSet text e false
  | @insert text e hagg hrep htext he =>
    obtain ⟨before, after, hcols, hins⟩ :=
      insertAt_eq_append s.filter.field.key (.ofSet text e true) done.columns
    refine ⟨kept, .ofSet text e true :: added, ?_, ?_, ?_, ?_⟩
    · refine h.rewritten.imp fun d c hr => hr.snoc ?_
      rintro ⟨hrep', -, -⟩
      simp [hrep] at hrep'
    · refine h.sublist.trans ?_
      rw [hins, hcols]
      exact (List.Sublist.refl before).append (List.sublist_cons_self _ _)
    · have hperm := h.perm
      rw [hcols] at hperm
      rw [hins]
      exact (List.perm_middle.trans (hperm.cons _)).trans List.perm_middle.symm
    · intro a ha
      rcases List.mem_cons.mp ha with rfl | ha
      · exact unflagged_ofSet text e true
      · exact h.unflagged a ha
  | @replace e hrep hnew he =>
    have hcols := replace_eq_map hn s.filter.field e
    refine ⟨kept.map (withCase s.filter.field.key e),
      added.map (withCase s.filter.field.key e) ++ missing s.filter.field e done.columns, ?_, ?_, ?_, ?_⟩
    · rw [List.forall₂_map_right_iff]
      refine h.rewritten.imp fun d c hr => ?_
      by_cases hkey : c.key = s.filter.field.key
      · have hd : s.Replaces d.key := by
          rw [← hr.key_eq, hkey]
          exact hrep
        have hfirst : ∀ s' ∈ splits, ¬ s'.Replaces d.key := by
          intro s' hs' hs'rep
          have hmem := ht s' hs' d.key hs'rep
          rw [← hr.key_eq, hkey] at hmem
          exact hnew hmem
        rw [withCase, if_pos hkey]
        exact hr.snoc_replacing hd hfirst he
      · rw [withCase_of_ne hkey]
        refine hr.snoc ?_
        rintro ⟨-, -, hkey'⟩
        exact hkey (hr.key_eq.trans hkey'.symm)
    · rw [hcols]
      exact (h.sublist.map _).trans (List.sublist_append_left _ _)
    · rw [hcols, ← List.append_assoc, ← List.map_append]
      exact (h.perm.map _).append_right _
    · intro a ha
      rcases List.mem_append.mp ha with ha | ha
      · obtain ⟨b, hb, rfl⟩ := List.mem_map.mp ha
        unfold withCase
        split_ifs
        · exact h.unflagged b hb
        · exact h.unflagged b hb
      · unfold missing at ha
        split_ifs at ha
        · cases ha
        · cases List.mem_singleton.mp ha
          exact ⟨rfl, rfl⟩

/-- The columns after a run of splits hold the declared ones, if no two of them share a key. -/
theorem extends_of_run {declared : List DimensionColumn} : ∀ {splits rest : List ResultSet}
    {done final : SplitColumns} {kept added : List DimensionColumn},
    rest.foldlM (apply scope) done = .ok final → (final.columns.map DimensionColumn.key).Nodup →
    Extends scope splits declared done.columns kept added → Tracks splits done →
    ∃ kept' added', Extends scope (splits ++ rest) declared final.columns kept' added' := by
  intro splits rest
  induction rest generalizing splits with
  | nil =>
    intro done final kept added hrun hn h ht
    rw [List.foldlM_nil, pure_eq_ok] at hrun
    rw [List.append_nil, ← hrun]
    exact ⟨kept, added, h⟩
  | cons s rest ih =>
    intro done final kept added hrun hn h ht
    rw [List.foldlM_cons, bind_eq_ok] at hrun
    obtain ⟨next, hnext, hrun⟩ := hrun
    have hstep := step_of_apply hnext
    have hn' := (keys_sublist_of_run hrun).nodup hn
    obtain ⟨kept', added', h'⟩ := h.step ht ((keys_sublist_of_step hstep).nodup hn') hstep
    have happend : splits ++ s :: rest = (splits ++ [s]) ++ rest := by simp
    rw [happend]
    exact ih hrun hn h' (ht.step hstep)

theorem extends_refl (declared : List DimensionColumn) :
    Extends scope [] declared declared declared [] where
  rewritten := List.forall₂_same.mpr fun d _ => ⟨rfl, fun _ => rfl, fun _ hs => absurd hs List.not_mem_nil⟩
  sublist := List.Sublist.refl _
  perm := by rw [List.append_nil]
  unflagged _ ha := absurd ha List.not_mem_nil

theorem extends_of_ofSplits {declared columns : List DimensionColumn}
    (h : ofSplits scope declared splits = .ok columns)
    (hn : (columns.map DimensionColumn.key).Nodup) :
    ∃ kept added, Extends scope splits declared columns kept added := by
  simp only [ofSplits, bind_eq_ok, pure_eq_ok] at h
  obtain ⟨final, hrun, rfl⟩ := h
  exact extends_of_run hrun hn (extends_refl declared) fun _ hs => absurd hs List.not_mem_nil

/-- Splits roll up no column. -/
theorem Extends.rollup_eq_false {declared columns kept added : List DimensionColumn}
    (h : Extends scope splits declared columns kept added) (hdeclared : ∀ d ∈ declared, d.rollup = false) :
    ∀ c ∈ columns, c.rollup = false := by
  intro c hc
  rcases List.mem_append.mp (h.perm.mem_iff.mp hc) with hc | hc
  · obtain ⟨d, hd, hdc⟩ := exists_left_of_forall₂ h.rewritten hc
    rw [hdc.rest]
    exact hdeclared d hd
  · exact (h.unflagged c hc).2

/-! ## Scopes -/

theorem inScope_step {done done' : SplitColumns} (h : Step scope s done done')
    (hdone : ∀ c ∈ done.columns, c.expr.InScope scope) :
    ∀ c ∈ done'.columns, c.expr.InScope scope := by
  intro c hc
  cases h with
  | select hagg htext he =>
    rcases List.mem_append.mp hc with hc | hc
    · exact hdone c hc
    · cases List.mem_singleton.mp hc
      exact he.inScope
  | replace hrep hnew he =>
    rcases expr_of_mem_replace hc with hexpr | hc
    · rw [hexpr]
      exact he.inScope
    · exact hdone c hc
  | @insert text e hagg hrep htext he =>
    obtain ⟨before, after, hcols, hins⟩ :=
      insertAt_eq_append s.filter.field.key (.ofSet text e true) done.columns
    rw [hcols] at hdone
    simp only [hins, List.mem_append, List.mem_cons] at hc
    rcases hc with hc | rfl | hc
    · exact hdone c (List.mem_append_left _ hc)
    · exact he.inScope
    · exact hdone c (List.mem_append_right _ hc)

theorem inScope_of_ofSplits {declared columns : List DimensionColumn}
    (h : ofSplits scope declared splits = .ok columns)
    (hdeclared : ∀ d ∈ declared, d.expr.InScope scope) : ∀ c ∈ columns, c.expr.InScope scope := by
  simp only [ofSplits, bind_eq_ok, pure_eq_ok] at h
  obtain ⟨final, hrun, rfl⟩ := h
  exact foldlM_keeps (f := apply scope) (P := fun t => ∀ c ∈ t.columns, c.expr.InScope scope)
    (fun _ _ _ hstep hs => inScope_step (step_of_apply hstep) hs) hrun hdeclared

end SplitColumns

end CubeSql
