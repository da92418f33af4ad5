import CubeSql.Proofs.Isolation
import CubeSql.Proofs.Resolvable

/-!
# Choices of dimensions

The query for the choices of a request's dimensions is that of the request without its metrics, references,
subtotals, conditions on groups and splits. But a request is resolved as a whole: a metric or a condition on
groups that cannot be resolved, and a metric under the key of another column, are reported in place of any
choices.
-/

namespace CubeSql

/-! ## Computations with faults of their own -/

section

variable {ε α β : Type} {P : ε → Prop}

/-- The first computation does what the second does, or it fails with one of the given errors. -/
def SameUnless (P : ε → Prop) (x y : Except ε α) : Prop := x = y ∨ ∃ e, x = .error e ∧ P e

theorem SameUnless.imp {Q : ε → Prop} {x y : Except ε α} (h : SameUnless P x y) (hPQ : ∀ e, P e → Q e) :
    SameUnless Q x y :=
  Or.imp_right (fun ⟨e, he, hP⟩ => ⟨e, he, hPQ e hP⟩) h

theorem SameUnless.bind {x : Except ε α} {f g : α → Except ε β}
    (h : ∀ a, x = .ok a → SameUnless P (f a) (g a)) : SameUnless P (x >>= f) (x >>= g) := by
  cases x with
  | error e => exact .inl rfl
  | ok a => exact h a rfl

theorem bind_eq_error {x : Except ε α} {f : α → Except ε β} {e : ε} :
    x >>= f = .error e ↔ x = .error e ∨ ∃ a, x = .ok a ∧ f a = .error e := by
  cases x with
  | error e => simp [Bind.bind, Except.bind]
  | ok a => simp [Bind.bind, Except.bind]

theorem exists_of_mapM_eq_error {f : α → Except ε β} {as : List α} {e : ε} (h : as.mapM f = .error e) :
    ∃ a ∈ as, f a = .error e := by
  induction as with
  | nil => cases h
  | cons a as ih =>
    rw [List.mapM_cons, bind_eq_error] at h
    rcases h with ha | ⟨b, -, h⟩
    · exact ⟨a, List.mem_cons_self, ha⟩
    · rcases bind_eq_error.mp h with has | ⟨bs, -, hpure⟩
      · obtain ⟨a', hmem, ha'⟩ := ih has
        exact ⟨a', List.mem_cons_of_mem _ hmem, ha'⟩
      · cases hpure

end

/-! ## Repeated keys -/

theorem firstRepeated?_append (seen keys more : List String) :
    firstRepeated? seen (keys ++ more) =
      (firstRepeated? seen keys).or (firstRepeated? (keys.reverse ++ seen) more) := by
  induction keys generalizing seen with
  | nil => rfl
  | cons key keys ih =>
    simp only [List.cons_append, firstRepeated?, List.reverse_cons, List.append_assoc, List.nil_append]
    split_ifs
    · rfl
    · exact ih (key :: seen)

/-- What is repeated first has been seen twice. -/
theorem count_of_firstRepeated? {seen keys : List String} {key : String}
    (h : firstRepeated? seen keys = some key) : key ∈ keys ∧ 1 < (seen ++ keys).count key := by
  induction keys generalizing seen with
  | nil => cases h
  | cons first keys ih =>
    unfold firstRepeated? at h
    split_ifs at h with hseen
    · cases h
      have hbefore : 0 < seen.count key := List.count_pos_iff.mpr hseen
      refine ⟨List.mem_cons_self, ?_⟩
      rw [List.count_append, List.count_cons_self]
      omega
    · obtain ⟨hmem, hcount⟩ := ih h
      rw [List.cons_append, ← List.perm_middle.count_eq] at hcount
      exact ⟨List.mem_cons_of_mem _ hmem, hcount⟩

/-! ## Requests for dimensions alone -/

namespace Request

/-- The filters on groups, in order. -/
def groupFilters (r : Request) : List Filter := r.filters.filterMap RequestFilter.group?

/-- The request without metrics, references, subtotals, conditions on groups and splits. -/
def dimensionsOnly (r : Request) : Request :=
  { r with metrics := [], references := [], rollup := [], filters := r.rowFilters.map .dimension }

/-- An error that comes of the metrics or of the conditions on groups. -/
inductive MetricFault (r : Request) : Error → Prop where
  /-- The key of a metric is declared once more. -/
  | key {m : Metric} : m ∈ r.metrics → 1 < (Selection.declaredKeys r).count m.key →
    MetricFault r (.duplicateAlias (aliasFor m.key))
  /-- A metric cannot be resolved. -/
  | metric {m : Metric} {e : Error} : m ∈ r.metrics → m.resolve r.scope = .error e → MetricFault r e
  /-- A condition on groups cannot be resolved. -/
  | group {f : Filter} {e : Error} : f ∈ r.groupFilters → f.resolve r.scope = .error e → MetricFault r e

end Request

/-- The query for the choices of the dimensions of a selection. -/
def Selection.choices (s : Selection) : Sql.Query where
  distinct := true
  items := s.dimensions.map fun d => ⟨d.expr, some d.aliasName⟩
  source := s.scope.baseSource
  joins := s.joins
  restrictions := s.restrictions.rows.map Restriction.predicate
  groups := []
  having := []
  order := []
  limit := s.limit
  offset := s.offset

theorem choicesQuery_eq {r : Request} (h : r.dimensions ≠ []) :
    choicesQuery r = (do return (← Selection.ofRequest r).choices) := by
  have hdims : r.dimensions.isEmpty = false := by simpa using h
  unfold choicesQuery
  rw [hdims]
  rfl

/-- A request with repeated keys is refused for the first of them. -/
theorem Selection.ofRequest_eq_error {r : Request} {key : String} (h : r.dimensions ≠ [])
    (hkeys : firstRepeated? [] (declaredKeys r) = some key) :
    ofRequest r = .error (.duplicateAlias (aliasFor key)) := by
  have hdims : r.dimensions.isEmpty = false := by simpa using h
  unfold ofRequest
  rw [hdims, hkeys]
  rfl

/-- A request with dimensions and without repeated keys is resolved part by part. -/
theorem Selection.ofRequest_eq {r : Request} (h : r.dimensions ≠ [])
    (hkeys : firstRepeated? [] (declaredKeys r) = none) :
    ofRequest r = (do
      let scope ← Scope.ofRequest r
      let joins ← r.joins.zipIdx.mapM fun (j, position) => j.resolve scope position
      let dimensions ← r.dimensions.mapM (Dimension.resolve scope)
      let metrics ← r.metrics.mapM (Metric.resolve scope)
      let restrictions ← r.filters.foldlM (Restrictions.add scope) .empty
      return ⟨scope, joins, dimensions, metrics, restrictions, r.limit, r.offset⟩) := by
  have hdims : r.dimensions.isEmpty = false := by simpa using h
  unfold ofRequest
  rw [hdims, hkeys]
  rfl

/-- Of the filters, those on rows alone decide the conditions on rows, unless one on groups fails. -/
theorem Restrictions.sameUnless_rows (scope : Scope) (filters : List RequestFilter)
    (next : List Restriction → Except Error Sql.Query) {parts rows : Restrictions}
    (hrows : parts.rows = rows.rows) :
    SameUnless (fun e => ∃ f ∈ filters.filterMap RequestFilter.group?, f.resolve scope = .error e)
      (filters.foldlM (add scope) parts >>= fun all => next all.rows)
      (((filters.filterMap RequestFilter.row?).map .dimension).foldlM (add scope) rows >>=
        fun all => next all.rows) := by
  induction filters generalizing parts rows with
  | nil => exact .inl (congrArg next hrows)
  | cons f filters ih =>
    cases f with
    | dimension f =>
      simp only [List.filterMap_cons, RequestFilter.row?, RequestFilter.group?, List.map_cons,
        List.foldlM_cons, add, bind_assoc, pure_bind]
      exact .bind fun row _ => ih (by simp [hrows])
    | metric f =>
      simp only [List.filterMap_cons, RequestFilter.row?, RequestFilter.group?, List.foldlM_cons, add,
        bind_assoc, pure_bind]
      cases hf : f.resolve scope with
      | error e => exact .inr ⟨e, rfl, f, List.mem_cons_self, hf⟩
      | ok row =>
        have hkept : ({ parts with groups := parts.groups ++ [row.predicate] } : Restrictions).rows =
            rows.rows := hrows
        rcases ih hkept with h | h
        · exact .inl h
        · obtain ⟨e, he, f', hmem, hf'⟩ := h
          exact .inr ⟨e, he, f', List.mem_cons_of_mem _ hmem, hf'⟩
    | resultSet s =>
      simp only [List.filterMap_cons, RequestFilter.row?, RequestFilter.group?, List.foldlM_cons, add,
        pure_bind]
      exact ih hrows

/-! ## Choices -/

namespace Request

variable {r : Request}

/-- The first repeated key is that of a dimension, whatever the metrics are, or it comes of a metric. -/
theorem firstRepeated?_declaredKeys (r : Request) :
    firstRepeated? [] (Selection.declaredKeys r) = firstRepeated? [] (Selection.declaredKeys r.dimensionsOnly) ∨
      ∃ m ∈ r.metrics, 1 < (Selection.declaredKeys r).count m.key ∧
        firstRepeated? [] (Selection.declaredKeys r) = some m.key := by
  have hsplit := firstRepeated?_append [] (r.dimensions.map Dimension.key) (r.metrics.map Metric.key)
  have honly : Selection.declaredKeys r.dimensionsOnly = r.dimensions.map Dimension.key := List.append_nil _
  rw [honly, Selection.declaredKeys, hsplit]
  cases firstRepeated? [] (r.dimensions.map Dimension.key) with
  | some key => exact .inl rfl
  | none =>
    rw [Option.none_or, List.append_nil]
    cases hmetrics : firstRepeated? (r.dimensions.map Dimension.key).reverse (r.metrics.map Metric.key) with
    | none => exact .inl rfl
    | some key =>
      obtain ⟨hmem, hcount⟩ := count_of_firstRepeated? hmetrics
      obtain ⟨m, hm, rfl⟩ := List.mem_map.mp hmem
      refine .inr ⟨m, hm, ?_, rfl⟩
      rwa [List.count_append, List.count_reverse, ← List.count_append] at hcount

/-- The choices of a request's dimensions are those of its dimensions alone, unless its metrics or its
conditions on groups are at fault. -/
theorem sameUnless_choicesQuery (h : r.dimensions ≠ []) :
    SameUnless r.MetricFault (choicesQuery r) (choicesQuery r.dimensionsOnly) := by
  have honly : r.dimensionsOnly.dimensions ≠ [] := h
  rw [choicesQuery_eq h, choicesQuery_eq honly]
  rcases firstRepeated?_declaredKeys r with hsame | ⟨m, hm, hcount, hkey⟩
  · cases hkeys : firstRepeated? [] (Selection.declaredKeys r.dimensionsOnly) with
    | some key =>
      rw [Selection.ofRequest_eq_error h (hsame.trans hkeys), Selection.ofRequest_eq_error honly hkeys]
      exact .inl rfl
    | none =>
      rw [Selection.ofRequest_eq h (hsame.trans hkeys), Selection.ofRequest_eq honly hkeys]
      simp only [bind_assoc, pure_bind]
      -- Tables, joins and dimensions come before the metrics, and are the same in both requests.
      refine .bind fun scope hscope => .bind fun joins _ => .bind fun dimensions _ => ?_
      obtain rfl : scope = r.scope := (Scope.ofRequest_eq_ok.mp hscope).2
      cases hmetrics : r.metrics.mapM (Metric.resolve r.scope) with
      | error e =>
        obtain ⟨m, hm, he⟩ := exists_of_mapM_eq_error hmetrics
        exact .inr ⟨e, rfl, .metric hm he⟩
      | ok metrics =>
        -- What the query shows of the filters are the conditions on rows.
        have hrows := Restrictions.sameUnless_rows r.scope r.filters (fun rows => pure (Selection.choices
            ⟨r.scope, joins, dimensions, metrics, ⟨rows, [], []⟩, r.limit, r.offset⟩))
          (rfl : Restrictions.empty.rows = Restrictions.empty.rows)
        exact hrows.imp fun e ⟨f, hf, he⟩ => Request.MetricFault.group hf he
  · rw [Selection.ofRequest_eq_error h hkey]
    exact .inr ⟨_, rfl, .key hm hcount⟩

/-- Where there are choices, neither metrics nor conditions on groups are at fault. -/
theorem not_metricFault_of_choicesQuery (h : r.dimensions ≠ []) {q : Sql.Query}
    (hq : choicesQuery r = .ok q) (e : Error) : ¬ r.MetricFault e := by
  rw [choicesQuery_eq h] at hq
  simp only [bind_eq_ok, Selection.ofRequest_eq_ok] at hq
  obtain ⟨s, hs, -⟩ := hq
  have hscope : s.scope = r.scope := hs.scope
  rintro (⟨hm, hcount⟩ | ⟨hm, he⟩ | ⟨hf, he⟩)
  · exact absurd (List.nodup_iff_count_le_one.mp hs.keys_nodup _) (Nat.not_le.mpr hcount)
  · obtain ⟨col, -, hres⟩ := exists_right_of_forall₂ hs.metrics hm
    rw [hscope, he] at hres
    cases hres
  · obtain ⟨_, -, row, hres, -⟩ := exists_right_of_forall₂ hs.restrictions.groups hf
    rw [hscope, he] at hres
    cases hres

end Request

/-- The choices of a request's dimensions are those of the request without metrics, references, subtotals,
conditions on groups and splits, unless an error comes of the metrics or of the conditions on groups; and
where such an error could come there are no choices. -/
theorem choices_of_dimensionsOnly {r : Request} (h : r.dimensions ≠ []) :
    SameUnless r.MetricFault (choicesQuery r) (choicesQuery r.dimensionsOnly) ∧
      ((∃ e, r.MetricFault e) → ∃ e, choicesQuery r = .error e) := by
  refine ⟨Request.sameUnless_choicesQuery h, ?_⟩
  rintro ⟨e, he⟩
  cases hq : choicesQuery r with
  | error e' => exact ⟨e', rfl⟩
  | ok q => exact absurd he (Request.not_metricFault_of_choicesQuery h hq e)

theorem choices_of_dimensionsOnly_clicksByDay :
    Request.clicksByDay.dimensions ≠ [] ∧ ∃ q, choicesQuery .clicksByDay = .ok q ∧
      choicesQuery Request.clicksByDay.dimensionsOnly = .ok q := by
  have hdims : Request.clicksByDay.dimensions ≠ [] := List.cons_ne_nil _ _
  obtain ⟨q, hq⟩ : ∃ q, choicesQuery .clicksByDay = .ok q := exists_of_isOk (by decide +kernel)
  refine ⟨hdims, q, hq, ?_⟩
  rcases (choices_of_dimensionsOnly hdims).1 with hsame | ⟨e, he, -⟩
  · rw [← hsame, hq]
  · rw [hq] at he
    cases he

/-- Visits by country, where the visits are counted in a table that is not joined. -/
def Request.visitsByCountry : Request where
  table := "clicks"
  joins := []
  dimensions := [.plain .country]
  metrics := [⟨"visits", .number, .sum (.column (some "visits") "count"), by decide⟩]
  filters := []
  references := []
  rollup := []
  limit := none
  offset := none

/-- Without the metric there are countries to choose from; with it, its table is reported as unknown. -/
theorem choices_lost_visitsByCountry :
    Request.visitsByCountry.dimensions ≠ [] ∧
      choicesQuery .visitsByCountry = .error (.unknownTable "visits") ∧
      ∃ q, choicesQuery Request.visitsByCountry.dimensionsOnly = .ok q :=
  ⟨List.cons_ne_nil _ _, rfl, exists_of_isOk (by decide +kernel)⟩

end CubeSql
