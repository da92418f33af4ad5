import CubeSql.Proofs.Headings
import CubeSql.Proofs.Plan
import Mathlib.Data.List.TakeWhile

/-!
# The effect of every split

Splits are applied one by one, each to the columns that it finds. A split in place of a field that has a
column rewrites the expression of that column and nothing else; every other split adds one column and leaves
all others as they are. So the declared columns keep their order, their keys, their types and their flags,
and the keys of all columns follow in order from the declared keys and the splits.
-/

namespace CubeSql

/-- The keys after a split: one by an aggregate adds its set as the last, one in place of a field adds the
field as the last unless it is there, and every other one adds its set before the field. -/
def ResultSet.placeKey (s : ResultSet) (keys : List String) : List String :=
  if s.filter.field.definition.isAggregate then keys ++ [s.setKey]
  else if s.replaces then
    if s.filter.field.key ∈ keys then keys else keys ++ [s.filter.field.key]
  else
    keys.takeWhile (· != s.filter.field.key) ++ s.setKey :: keys.dropWhile (· != s.filter.field.key)

/-- The keys of the dimension columns of a request, as the splits leave them. -/
def Request.columnKeys (r : Request) : List String :=
  r.splits.foldl (fun keys s => s.placeKey keys) (r.dimensions.map Dimension.key)

namespace SplitColumns

variable {scope : Scope} {s : ResultSet} {done done' : SplitColumns}

/-! ## One split -/

/-- What a split does to the columns that it finds. -/
inductive Effect (scope : Scope) (s : ResultSet) : List DimensionColumn → List DimensionColumn → Prop where
  /-- In place of a field that has a column: the column is computed from the split. -/
  | rewrites {before after : List DimensionColumn} {d : DimensionColumn} {e : Sql.Expr}
      (hrep : s.Replaces d.key) (he : s.IsCase scope e) :
      Effect scope s (before ++ d :: after) (before ++ { d with expr := e } :: after)
  /-- In place of a field without a column: the field becomes the last column. -/
  | addsField {found : List DimensionColumn} {e : Sql.Expr} (hrep : s.Replaces s.filter.field.key)
      (hnone : s.filter.field.key ∉ found.map DimensionColumn.key) (he : s.IsCase scope e) :
      Effect scope s found
        (found ++ [⟨s.filter.field.key, s.filter.field.dataType, e, false, false, true⟩])
  /-- By an aggregate: the set becomes the last column, which is not grouped by. -/
  | addsAggregate {found : List DimensionColumn} {text : String} {e : Sql.Expr}
      (hagg : s.filter.field.definition.isAggregate = true) (htext : s.filter.describe = .ok text)
      (he : s.IsCase scope e) :
      Effect scope s found (found ++ [⟨"set(" ++ text ++ ")", .text, e, false, false, false⟩])
  /-- Beside a field that has a column: the set becomes the column before it. -/
  | addsBefore {before after : List DimensionColumn} {d : DimensionColumn} {text : String} {e : Sql.Expr}
      (hagg : s.filter.field.definition.isAggregate = false) (hrep : s.replaces = false)
      (hkey : d.key = s.filter.field.key) (htext : s.filter.describe = .ok text)
      (he : s.IsCase scope e) :
      Effect scope s (before ++ d :: after)
        (before ++ ⟨"set(" ++ text ++ ")", .text, e, false, false, true⟩ :: d :: after)
  /-- Beside a field without a column: the set becomes the last column. -/
  | addsLast {found : List DimensionColumn} {text : String} {e : Sql.Expr}
      (hagg : s.filter.field.definition.isAggregate = false) (hrep : s.replaces = false)
      (hnone : s.filter.field.key ∉ found.map DimensionColumn.key) (htext : s.filter.describe = .ok text)
      (he : s.IsCase scope e) :
      Effect scope s found (found ++ [⟨"set(" ++ text ++ ")", .text, e, false, false, true⟩])

/-- What splits do to the columns that the first of them finds, one after another. -/
inductive Effects (scope : Scope) :
    List ResultSet → List DimensionColumn → List DimensionColumn → Prop where
  /-- No splits change nothing. -/
  | nil (columns : List DimensionColumn) : Effects scope [] columns columns
  /-- Each split finds what the ones before it left. -/
  | cons {s : ResultSet} {splits : List ResultSet} {found next final : List DimensionColumn}
      (hfirst : Effect scope s found next) (hrest : Effects scope splits next final) :
      Effects scope (s :: splits) found final

theorem splitAtKey_of_not_mem {key : String} {columns : List DimensionColumn}
    (h : key ∉ columns.map DimensionColumn.key) : splitAtKey key columns = (columns, []) := by
  have hall : ∀ d ∈ columns, (d.key != key) = true := by
    intro d hd
    refine bne_iff_ne.mpr fun hkey => h ?_
    rw [← hkey]
    exact List.mem_map_of_mem hd
  rw [splitAtKey, List.takeWhile_eq_self_iff.mpr hall, List.dropWhile_eq_nil_iff.mpr hall]

theorem exists_splitAtKey {key : String} {columns : List DimensionColumn}
    (h : key ∈ columns.map DimensionColumn.key) :
    ∃ before d after, columns = before ++ d :: after ∧ d.key = key ∧
      splitAtKey key columns = (before, d :: after) := by
  induction columns with
  | nil => cases h
  | cons c columns ih =>
    by_cases hkey : c.key = key
    · exact ⟨[], c, columns, rfl, hkey, by simp [splitAtKey, hkey]⟩
    · have hrest : key ∈ columns.map DimensionColumn.key := by
        rcases List.mem_cons.mp h with heq | hmem
        · exact absurd heq.symm hkey
        · exact hmem
      obtain ⟨before, d, after, hcolumns, hd, hsplit⟩ := ih hrest
      refine ⟨c :: before, d, after, by rw [hcolumns, List.cons_append], hd, ?_⟩
      unfold splitAtKey at hsplit ⊢
      rw [Prod.mk.injEq] at hsplit
      rw [List.takeWhile_cons_of_pos (by simpa using hkey), List.dropWhile_cons_of_pos (by simpa using hkey),
        hsplit.1, hsplit.2]

theorem exists_replace {f : Field} {columns : List DimensionColumn}
    (h : f.key ∈ columns.map DimensionColumn.key) (e : Sql.Expr) :
    ∃ before d after, columns = before ++ d :: after ∧ d.key = f.key ∧
      replace f e columns = before ++ { d with expr := e } :: after := by
  obtain ⟨before, d, after, hcolumns, hd, hsplit⟩ := exists_splitAtKey h
  exact ⟨before, d, after, hcolumns, hd, by rw [replace, hsplit]⟩

theorem replace_of_not_mem {f : Field} {columns : List DimensionColumn}
    (h : f.key ∉ columns.map DimensionColumn.key) (e : Sql.Expr) :
    replace f e columns = columns ++ [⟨f.key, f.dataType, e, false, false, true⟩] := by
  rw [replace, splitAtKey_of_not_mem h]

theorem exists_insertAt {key : String} {columns : List DimensionColumn}
    (h : key ∈ columns.map DimensionColumn.key) (new : DimensionColumn) :
    ∃ before d after, columns = before ++ d :: after ∧ d.key = key ∧
      insertAt key new columns = before ++ new :: d :: after := by
  obtain ⟨before, d, after, hcolumns, hd, hsplit⟩ := exists_splitAtKey h
  exact ⟨before, d, after, hcolumns, hd, by rw [insertAt, hsplit]⟩

theorem insertAt_of_not_mem {key : String} {columns : List DimensionColumn}
    (h : key ∉ columns.map DimensionColumn.key) (new : DimensionColumn) :
    insertAt key new columns = columns ++ [new] := by
  rw [insertAt, splitAtKey_of_not_mem h]

theorem effect_of_step (h : Step scope s done done') : Effect scope s done.columns done'.columns := by
  cases h with
  | select hagg htext he => exact .addsAggregate hagg htext he
  | @replace e hrep hnew he =>
    show Effect scope s done.columns (replace s.filter.field e done.columns)
    by_cases hmem : s.filter.field.key ∈ done.columns.map DimensionColumn.key
    · obtain ⟨before, d, after, hcolumns, hd, hreplaced⟩ := exists_replace hmem e
      rw [hreplaced, hcolumns]
      rw [← hd] at hrep
      exact .rewrites hrep he
    · rw [replace_of_not_mem hmem]
      exact .addsField hrep hmem he
  | @insert text e hagg hrep htext he =>
    show Effect scope s done.columns (insertAt s.filter.field.key (.ofSet text e true) done.columns)
    by_cases hmem : s.filter.field.key ∈ done.columns.map DimensionColumn.key
    · obtain ⟨before, d, after, hcolumns, hd, hinserted⟩ := exists_insertAt hmem (.ofSet text e true)
      rw [hinserted, hcolumns]
      exact .addsBefore hagg hrep hd htext he
    · rw [insertAt_of_not_mem hmem]
      exact .addsLast hagg hrep hmem htext he

theorem keys_of_step (h : Step scope s done done') :
    done'.columns.map DimensionColumn.key = s.placeKey (done.columns.map DimensionColumn.key) := by
  unfold ResultSet.placeKey
  cases h with
  | select hagg htext he =>
    rw [if_pos hagg, ResultSet.setKey_of_describe htext, List.map_append]
    rfl
  | @replace e hrep hnew he =>
    rw [if_neg (by simp [hrep.2.1]), if_pos hrep.1, ← DimensionColumn.map_fst_heading, map_heading_replace]
    split_ifs
    · rw [DimensionColumn.map_fst_heading]
    · rw [List.map_append, DimensionColumn.map_fst_heading]
      rfl
  | @insert text e hagg hrep htext he =>
    rw [if_neg (by simp [hagg]), if_neg (by simp [hrep]), ResultSet.setKey_of_describe htext,
      List.takeWhile_map, List.dropWhile_map]
    show (insertAt s.filter.field.key (.ofSet text e true) done.columns).map DimensionColumn.key = _
    rw [insertAt, splitAtKey, List.map_append, List.map_cons]
    rfl

/-! ## All splits -/

theorem effects_of_run {splits : List ResultSet} {final : SplitColumns}
    (h : splits.foldlM (apply scope) done = .ok final) : Effects scope splits done.columns final.columns := by
  induction splits generalizing done with
  | nil =>
    rw [List.foldlM_nil, pure_eq_ok] at h
    rw [h]
    exact .nil _
  | cons s splits ih =>
    rw [List.foldlM_cons, bind_eq_ok] at h
    obtain ⟨next, hnext, h⟩ := h
    exact .cons (effect_of_step (step_of_apply hnext)) (ih h)

theorem keys_of_run {splits : List ResultSet} {final : SplitColumns}
    (h : splits.foldlM (apply scope) done = .ok final) : final.columns.map DimensionColumn.key =
      splits.foldl (fun keys s => s.placeKey keys) (done.columns.map DimensionColumn.key) := by
  induction splits generalizing done with
  | nil =>
    rw [List.foldlM_nil, pure_eq_ok] at h
    rw [h]
    rfl
  | cons s splits ih =>
    rw [List.foldlM_cons, bind_eq_ok] at h
    obtain ⟨next, hnext, h⟩ := h
    rw [List.foldl_cons, ← keys_of_step (step_of_apply hnext)]
    exact ih h

theorem effects_of_ofSplits {splits : List ResultSet} {declared columns : List DimensionColumn}
    (h : ofSplits scope declared splits = .ok columns) : Effects scope splits declared columns := by
  simp only [ofSplits, bind_eq_ok, pure_eq_ok] at h
  obtain ⟨final, hrun, rfl⟩ := h
  exact effects_of_run hrun

theorem keys_of_ofSplits {splits : List ResultSet} {declared columns : List DimensionColumn}
    (h : ofSplits scope declared splits = .ok columns) : columns.map DimensionColumn.key =
      splits.foldl (fun keys s => s.placeKey keys) (declared.map DimensionColumn.key) := by
  simp only [ofSplits, bind_eq_ok, pure_eq_ok] at h
  obtain ⟨final, hrun, rfl⟩ := h
  exact keys_of_run hrun

/-- A declared column as splits leave it, and when its expression is another one than before. -/
structure KeptAs (scope : Scope) (splits : List ResultSet) (d c : DimensionColumn) : Prop
    extends Rewritten scope splits d c where
  /-- The expression changes exactly if a split stands in place of the column whose CASE was not declared as
  the expression of the column already. -/
  changed : c.expr ≠ d.expr ↔ ∃ s ∈ splits, s.Replaces d.key ∧ ¬ s.IsCase scope d.expr
  /-- A CASE is never the definition that it splits, so splits of the column's own definition change it exactly
  by standing in its place. -/
  changed_of_own : (∀ s ∈ splits, s.Replaces d.key → s.filter.field.definition.lower scope = .ok d.expr) →
    (c.expr ≠ d.expr ↔ ∃ s ∈ splits, s.Replaces d.key)

theorem Rewritten.expr_ne_iff {splits : List ResultSet} {d c : DimensionColumn}
    (h : Rewritten scope splits d c) :
    c.expr ≠ d.expr ↔ ∃ s ∈ splits, s.Replaces d.key ∧ ¬ s.IsCase scope d.expr := by
  constructor
  · intro hne
    by_cases hall : ∀ s ∈ splits, ¬ s.Replaces d.key
    · exact absurd (h.kept hall) hne
    · push Not at hall
      obtain ⟨s, hs, hrep⟩ := hall
      exact ⟨s, hs, hrep, fun hcase => hne ((h.replaced s hs hrep).unique hcase)⟩
  · rintro ⟨s, hs, hrep, hcase⟩ heq
    have hc := h.replaced s hs hrep
    rw [heq] at hc
    exact hcase hc

theorem Rewritten.keptAs {splits : List ResultSet} {d c : DimensionColumn}
    (h : Rewritten scope splits d c) : KeptAs scope splits d c := by
  refine ⟨h, h.expr_ne_iff, fun hown => h.expr_ne_iff.trans ?_⟩
  constructor
  · rintro ⟨s, hs, hrep, -⟩
    exact ⟨s, hs, hrep⟩
  · rintro ⟨s, hs, hrep⟩
    exact ⟨s, hs, hrep, fun hcase => hcase.ne_subject (hown s hs hrep) rfl⟩

/-- Splits that leave columns of different keys keep the declared ones in their order, each rewritten only by
a split that stands in its place, to the CASE of this split, and every split rewrites one column that it finds
or adds one to them. -/
theorem declared_kept_of_ofSplits {splits : List ResultSet} {declared columns : List DimensionColumn}
    (h : ofSplits scope declared splits = .ok columns) (hn : (columns.map DimensionColumn.key).Nodup) :
    (∃ kept, List.Forall₂ (KeptAs scope splits) declared kept ∧ kept.Sublist columns) ∧
      Effects scope splits declared columns := by
  obtain ⟨kept, added, hext⟩ := extends_of_ofSplits h hn
  exact ⟨⟨kept, hext.rewritten.imp fun _ _ hr => hr.keptAs, hext.sublist⟩, effects_of_ofSplits h⟩

/-- The browser and the country of a click. -/
def clickColumns : List DimensionColumn := [
  ⟨"browser", .text, .column none "browser", true, false, true⟩,
  ⟨"country", .text, .column none "country", false, false, true⟩]

/-- Splits in place of the browser and beside the country, by an aggregate, and of two fields without
columns. -/
def clickSplits : List ResultSet := [
  .ofFilter ⟨⟨"browser", .text, .column none "browser", by decide⟩, .eq, .ofValue (.text "Firefox")⟩,
  ⟨⟨.country, .eq, .ofValue (.text "DE")⟩, some "home", none, false, true⟩,
  .ofFilter ⟨.clicks, .gt, .ofValue (.scalar (.number (.int 10)))⟩,
  .ofFilter ⟨⟨"city", .text, .column none "city", by decide⟩, .eq, .ofValue (.text "Rome")⟩,
  ⟨⟨.day, .eq, .ofValue (.text "Monday")⟩, none, none, false, false⟩]

/-- The keys of the columns that these splits leave, and what the columns are computed from. -/
def splitClickColumns : List (String × String) := [
  ("browser", "CASE WHEN \"browser\"='Firefox' THEN 'set(browser=''Firefox'')' " ++
    "ELSE 'complement(browser=''Firefox'')' END"),
  ("set(country='DE')", "CASE WHEN \"country\"='DE' THEN 'home' ELSE NULL END"),
  ("country", "\"country\""),
  ("set(SUM(clicks)>10)", "CASE WHEN SUM(\"clicks\")>10 THEN 'set(SUM(clicks)>10)' " ++
    "ELSE 'complement(SUM(clicks)>10)' END"),
  ("city", "CASE WHEN \"city\"='Rome' THEN 'set(city=''Rome'')' ELSE 'complement(city=''Rome'')' END"),
  ("set(day='Monday')", "CASE WHEN \"day\"='Monday' THEN 'set(day=''Monday'')' ELSE \"day\" END")]

theorem declared_kept_clickSplits :
    ∃ columns, ofSplits ⟨"clicks", []⟩ clickColumns clickSplits = .ok columns ∧
      columns.map (fun c => (c.key, c.expr.text Sql.Dialect.duckdb.spelling)) = splitClickColumns ∧
      (columns.map DimensionColumn.key).Nodup ∧
      (∃ kept, List.Forall₂ (KeptAs ⟨"clicks", []⟩ clickSplits) clickColumns kept ∧
        kept.Sublist columns) ∧
      Effects ⟨"clicks", []⟩ clickSplits clickColumns columns := by
  have htexts : (ofSplits ⟨"clicks", []⟩ clickColumns clickSplits).toOption.map
      (List.map fun c => (c.key, c.expr.text Sql.Dialect.duckdb.spelling)) = some splitClickColumns := by
    decide +kernel
  obtain ⟨columns, h, htexts⟩ := exists_of_map_toOption htexts
  have hkeys : columns.map DimensionColumn.key = splitClickColumns.map Prod.fst := by
    rw [← htexts, List.map_map]
    rfl
  have hn : (columns.map DimensionColumn.key).Nodup := by
    rw [hkeys]
    decide
  exact ⟨columns, h, htexts, hn, declared_kept_of_ofSplits h hn⟩

end SplitColumns

end CubeSql
