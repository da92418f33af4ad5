import CubeSql.Plan.Selection
import CubeSql.Proofs.Lowering

/-!
# Resolved requests

What a request selects once it has been resolved, clause by clause: its keys differ, and its joins,
dimensions, metrics and filters are the lowered ones of the request, in their order. All expressions name
tables in scope, and the tables in scope are those that the clauses FROM and JOIN give an alias to.
-/

namespace CubeSql

theorem firstRepeated?_eq_none {seen keys : List String} :
    firstRepeated? seen keys = none ↔ (∀ k ∈ keys, k ∉ seen) ∧ keys.Nodup := by
  induction keys generalizing seen with
  | nil => simp [firstRepeated?]
  | cons key keys ih =>
    unfold firstRepeated?
    split_ifs with h
    · simp [h]
    · rw [ih]
      simp only [List.mem_cons, List.nodup_cons, not_or]
      constructor
      · rintro ⟨hs, hn⟩
        refine ⟨?_, fun hk => (hs key hk).1 rfl, hn⟩
        rintro k (rfl | hk)
        · exact h
        · exact (hs k hk).2
      · rintro ⟨hs, hk, hn⟩
        refine ⟨fun k hmem => ⟨?_, hs k (.inr hmem)⟩, hn⟩
        rintro rfl
        exact hk hmem

/-! ## The parts of a request -/

theorem Dimension.resolve_eq_ok {scope : Scope} {d : Dimension} {col : DimensionColumn} :
    d.resolve scope = .ok col ↔ ∃ e, d.field.definition.lower scope = .ok e ∧
      ⟨d.key, d.field.dataType, e, d.isTotals, false, true⟩ = col := by
  simp only [resolve, bind_eq_ok, pure_eq_ok]

theorem Metric.resolve_eq_ok {scope : Scope} {m : Metric} {col : MetricColumn} :
    m.resolve scope = .ok col ↔ ∃ e, m.field.definition.lower scope = .ok e ∧ ⟨m.key, e⟩ = col := by
  simp only [resolve, bind_eq_ok, pure_eq_ok]

theorem Filter.resolve_eq_ok {scope : Scope} {f : Filter} {row : Restriction} :
    f.resolve scope = .ok row ↔ ∃ e, f.field.definition.lower scope = .ok e ∧
      ∃ k, f.condition = .ok k ∧ ⟨f.field.key, e, k⟩ = row := by
  simp only [resolve, bind_eq_ok, pure_eq_ok]

theorem Join.resolve_eq_ok {scope : Scope} {j : Join} {position : Nat} {qj : Sql.QueryJoin} :
    j.resolve scope position = .ok qj ↔ ∃ source, scope.joinSource position = .ok source ∧
      ∃ on, List.Forall₂ (fun e e' => e.lower scope = .ok e') j.on.conjuncts on ∧
        ⟨j.joinType.kind, source, on⟩ = qj := by
  simp only [resolve, bind_eq_ok, pure_eq_ok, mapM_eq_ok]

namespace RequestFilter

/-- The filter, if it restricts rows. -/
def row? : RequestFilter → Option Filter
  | .dimension f => some f
  | _ => none

/-- The filter, if it restricts groups. -/
def group? : RequestFilter → Option Filter
  | .metric f => some f
  | _ => none

/-- The split, if the filter is one. -/
def split? : RequestFilter → Option ResultSet
  | .resultSet s => some s
  | _ => none

end RequestFilter

/-- The splits of a request, in order. -/
def Request.splits (r : Request) : List ResultSet := r.filters.filterMap RequestFilter.split?

namespace Restrictions

/-- The filters of each kind, lowered in their order. -/
structure Resolved (scope : Scope) (filters : List RequestFilter) (parts : Restrictions) : Prop where
  rows : List.Forall₂ (fun f row => f.resolve scope = .ok row)
    (filters.filterMap RequestFilter.row?) parts.rows
  groups : List.Forall₂ (fun f e => ∃ row, f.resolve scope = .ok row ∧ e = row.predicate)
    (filters.filterMap RequestFilter.group?) parts.groups
  splits : parts.splits = filters.filterMap RequestFilter.split?

/-- Filters sorted in two goes. -/
def append (a b : Restrictions) : Restrictions :=
  ⟨a.rows ++ b.rows, a.groups ++ b.groups, a.splits ++ b.splits⟩

theorem foldlM_add {scope : Scope} {filters : List RequestFilter} {start parts : Restrictions} :
    filters.foldlM (add scope) start = .ok parts ↔
      ∃ more, Resolved scope filters more ∧ parts = start.append more := by
  induction filters generalizing start with
  | nil =>
    rw [List.foldlM_nil, pure_eq_ok]
    constructor
    · rintro rfl
      exact ⟨.empty, ⟨.nil, .nil, rfl⟩, by simp [append, empty]⟩
    · rintro ⟨⟨rows, groups, splits⟩, ⟨hr, hg, hs⟩, rfl⟩
      cases hr
      cases hg
      cases hs
      simp [append]
  | cons f filters ih =>
    simp only [List.foldlM_cons, bind_eq_ok, ih]
    cases f with
    | dimension f =>
      simp only [add, bind_eq_ok, pure_eq_ok]
      constructor
      · rintro ⟨_, ⟨row, hrow, rfl⟩, more, ⟨hr, hg, hs⟩, rfl⟩
        exact ⟨⟨row :: more.rows, more.groups, more.splits⟩, ⟨.cons hrow hr, hg, hs⟩, by simp [append]⟩
      · rintro ⟨⟨rows, groups, splits⟩, ⟨hr, hg, hs⟩, rfl⟩
        obtain ⟨row, rest, hrow, hrest, rfl⟩ := List.forall₂_cons_left_iff.mp hr
        exact ⟨_, ⟨row, hrow, rfl⟩, ⟨rest, groups, splits⟩, ⟨hrest, hg, hs⟩, by simp [append]⟩
    | metric f =>
      simp only [add, bind_eq_ok, pure_eq_ok]
      constructor
      · rintro ⟨_, ⟨row, hrow, rfl⟩, more, ⟨hr, hg, hs⟩, rfl⟩
        exact ⟨⟨more.rows, row.predicate :: more.groups, more.splits⟩,
          ⟨hr, .cons ⟨row, hrow, rfl⟩ hg, hs⟩, by simp [append]⟩
      · rintro ⟨⟨rows, groups, splits⟩, ⟨hr, hg, hs⟩, rfl⟩
        obtain ⟨_, rest, ⟨row, hrow, rfl⟩, hrest, rfl⟩ := List.forall₂_cons_left_iff.mp hg
        exact ⟨_, ⟨row, hrow, rfl⟩, ⟨rows, rest, splits⟩, ⟨hr, hrest, hs⟩, by simp [append]⟩
    | resultSet s =>
      simp only [add, pure_eq_ok]
      constructor
      · rintro ⟨_, rfl, more, ⟨hr, hg, hs⟩, rfl⟩
        exact ⟨⟨more.rows, more.groups, s :: more.splits⟩, ⟨hr, hg, by simp [hs, RequestFilter.split?]⟩,
          by simp [append]⟩
      · rintro ⟨⟨rows, groups, splits⟩, ⟨hr, hg, hs⟩, rfl⟩
        refine ⟨_, rfl, ⟨rows, groups, filters.filterMap RequestFilter.split?⟩, ⟨hr, hg, rfl⟩, ?_⟩
        have hs' : splits = [s] ++ filters.filterMap RequestFilter.split? := hs
        simp only [append, hs', List.append_assoc]

theorem foldlM_add_empty {scope : Scope} {filters : List RequestFilter} {parts : Restrictions} :
    filters.foldlM (add scope) .empty = .ok parts ↔ Resolved scope filters parts := by
  rw [foldlM_add]
  constructor
  · rintro ⟨more, h, rfl⟩
    exact h
  · intro h
    exact ⟨parts, h, rfl⟩

end Restrictions

/-! ## The whole request -/

theorem Scope.joinSource_eq_ok {s : Scope} {position : Nat} {source : Sql.Source} :
    s.joinSource position = .ok source ↔ ∃ name, s.joined[position]? = some name ∧
      .table name (some (aliasAt (position + 1))) = source := by
  unfold joinSource
  cases s.joined[position]? <;> simp

theorem Scope.ofRequest_eq_ok {r : Request} {scope : Scope} :
    Scope.ofRequest r = .ok scope ↔
      Text.isBlank r.table = false ∧ scope = ⟨r.table, r.joins.map Join.table⟩ := by
  unfold Scope.ofRequest
  split_ifs with h
  · simp [h]
  · simp [h, eq_comm]

namespace Selection

/-- A selection holds the parts of a request, each resolved against the request's tables. -/
structure Resolved (r : Request) (s : Selection) : Prop where
  nonempty : ¬ (r.dimensions = [] ∧ r.metrics = [])
  keys_nodup : (declaredKeys r).Nodup
  table_not_blank : Text.isBlank r.table = false
  scope : s.scope = ⟨r.table, r.joins.map Join.table⟩
  joins : List.Forall₂ (fun jp qj => jp.1.resolve s.scope jp.2 = .ok qj) r.joins.zipIdx s.joins
  dimensions : List.Forall₂ (fun d col => d.resolve s.scope = .ok col) r.dimensions s.dimensions
  metrics : List.Forall₂ (fun m col => m.resolve s.scope = .ok col) r.metrics s.metrics
  restrictions : Restrictions.Resolved s.scope r.filters s.restrictions
  limit : s.limit = r.limit
  offset : s.offset = r.offset

theorem ofRequest_eq_ok {r : Request} {s : Selection} : ofRequest r = .ok s ↔ Resolved r s := by
  have hkeys : firstRepeated? [] (declaredKeys r) = none ↔ (declaredKeys r).Nodup := by
    simp [firstRepeated?_eq_none]
  unfold ofRequest
  simp only [guarded_eq_ok, Bool.and_eq_true, List.isEmpty_iff]
  cases hrep : firstRepeated? [] (declaredKeys r) with
  | some key =>
    constructor
    · rintro ⟨-, h⟩
      simp at h
    · intro h
      rw [hkeys.mpr h.keys_nodup] at hrep
      cases hrep
  | none =>
    simp only [bind_eq_ok, pure_eq_ok, mapM_eq_ok, Restrictions.foldlM_add_empty, Scope.ofRequest_eq_ok]
    constructor
    · rintro ⟨hne, scope, ⟨ht, hscope⟩, joins, hj, dimensions, hd, metrics, hm, restrictions, hr, rfl⟩
      exact ⟨hne, hkeys.mp hrep, ht, hscope, hj, hd, hm, hr, rfl, rfl⟩
    · intro h
      refine ⟨h.nonempty, s.scope, ⟨h.table_not_blank, h.scope⟩, s.joins, h.joins, s.dimensions,
        h.dimensions, s.metrics, h.metrics, s.restrictions, h.restrictions, ?_⟩
      rw [← h.limit, ← h.offset]

namespace Resolved

variable {r : Request} {s : Selection}

theorem length_joins (h : Resolved r s) : s.joins.length = s.scope.joined.length := by
  rw [← h.joins.length_eq, h.scope]
  simp

/-- All that is selected from or joined is a table. -/
theorem sources_are_tables (h : Resolved r s) :
    ∀ source ∈ s.scope.baseSource :: s.joins.map Sql.JoinOf.source,
      ∃ name aliasName, source = .table name aliasName := by
  intro source hsource
  rcases List.mem_cons.mp hsource with rfl | hsource
  · exact ⟨_, _, rfl⟩
  · obtain ⟨j, hj, rfl⟩ := List.mem_map.mp hsource
    obtain ⟨jp, -, hres⟩ := exists_left_of_forall₂ h.joins hj
    obtain ⟨source, hjoined, on, -, rfl⟩ := Join.resolve_eq_ok.mp hres
    obtain ⟨name, -, rfl⟩ := Scope.joinSource_eq_ok.mp hjoined
    exact ⟨_, _, rfl⟩

/-- The table of a join has the alias of its position. -/
theorem source_of_getElem (h : Resolved r s) {i : Nat} (hi : i < s.joins.length) :
    s.joins[i].source.aliasName? = some (Scope.aliasAt (i + 1)) := by
  have hi' : i < r.joins.zipIdx.length := h.joins.length_eq ▸ hi
  have hj := h.joins.get hi' hi
  simp only [List.get_eq_getElem, List.getElem_zipIdx, Nat.zero_add, Join.resolve_eq_ok] at hj
  obtain ⟨source, hsource, on, -, hjoin⟩ := hj
  obtain ⟨name, -, rfl⟩ := Scope.joinSource_eq_ok.mp hsource
  rw [← hjoin]
  rfl

/-- The tables in scope are those that FROM and JOIN give an alias to. -/
theorem aliases_eq_qualifiers (h : Resolved r s) :
    (s.scope.baseSource :: s.joins.map Sql.JoinOf.source).map Sql.Source.aliasName? =
      s.scope.qualifiers := by
  refine List.ext_getElem (by simp [Scope.qualifiers, h.length_joins]) fun i hi hi' => ?_
  cases i with
  | zero => simp [Scope.qualifiers, Scope.baseSource, Sql.Source.aliasName?]
  | succ i =>
    have hi'' : i < s.joins.length := by simpa using hi
    have hq : s.scope.isQualified = true := by
      have hne : s.scope.joined ≠ [] := by
        intro hnil
        rw [h.length_joins, hnil] at hi''
        cases hi''
      simp [Scope.isQualified, hne]
    simp [Scope.qualifiers, Scope.qualifierAt, hq, h.source_of_getElem hi'']

theorem inScope_on (h : Resolved r s) : ∀ j ∈ s.joins, ∀ e ∈ j.on, e.InScope s.scope := by
  intro j hj e he
  obtain ⟨jp, -, hjp⟩ := exists_left_of_forall₂ h.joins hj
  obtain ⟨_, -, on, hon, rfl⟩ := Join.resolve_eq_ok.mp hjp
  obtain ⟨_, -, hlower⟩ := exists_left_of_forall₂ hon he
  exact Expr.inScope_of_lower hlower

/-- The declared columns have the keys of the request's dimensions. -/
theorem keys_dimensions (h : Resolved r s) :
    s.dimensions.map DimensionColumn.key = r.dimensions.map Dimension.key := by
  refine (map_eq_of_forall₂ h.dimensions fun d c hres => ?_).symm
  obtain ⟨e, -, rfl⟩ := Dimension.resolve_eq_ok.mp hres
  rfl

/-- The metric columns have the keys of the request's metrics. -/
theorem keys_metrics (h : Resolved r s) :
    s.metrics.map MetricColumn.key = r.metrics.map Metric.key := by
  refine (map_eq_of_forall₂ h.metrics fun m c hres => ?_).symm
  obtain ⟨e, -, rfl⟩ := Metric.resolve_eq_ok.mp hres
  rfl

/-- Every declared column is that of a dimension of the request. -/
theorem exists_dimension (h : Resolved r s) {col : DimensionColumn} (hcol : col ∈ s.dimensions) :
    ∃ d ∈ r.dimensions, ∃ e, d.field.definition.lower s.scope = .ok e ∧
      col = ⟨d.key, d.field.dataType, e, d.isTotals, false, true⟩ := by
  obtain ⟨d, hd, hres⟩ := exists_left_of_forall₂ h.dimensions hcol
  obtain ⟨e, hlower, heq⟩ := Dimension.resolve_eq_ok.mp hres
  exact ⟨d, hd, e, hlower, heq.symm⟩

/-- No declared column is rolled up before the rollup groups are planned. -/
theorem rollup_eq_false (h : Resolved r s) : ∀ d ∈ s.dimensions, d.rollup = false := by
  intro d hd
  obtain ⟨_, -, e, -, rfl⟩ := h.exists_dimension hd
  rfl

/-- Every dimension of the request has a declared column. -/
theorem exists_column (h : Resolved r s) {d : Dimension} (hd : d ∈ r.dimensions) :
    ∃ e, d.field.definition.lower s.scope = .ok e ∧
      ⟨d.key, d.field.dataType, e, d.isTotals, false, true⟩ ∈ s.dimensions := by
  obtain ⟨col, hcol, hres⟩ := exists_right_of_forall₂ h.dimensions hd
  obtain ⟨e, hlower, rfl⟩ := Dimension.resolve_eq_ok.mp hres
  exact ⟨e, hlower, hcol⟩

theorem inScope_dimension (h : Resolved r s) : ∀ d ∈ s.dimensions, d.expr.InScope s.scope := by
  intro d hd
  obtain ⟨_, -, e, hlower, rfl⟩ := h.exists_dimension hd
  exact Expr.inScope_of_lower hlower

theorem inScope_metric (h : Resolved r s) : ∀ m ∈ s.metrics, m.expr.InScope s.scope := by
  intro m hm
  obtain ⟨_, -, hres⟩ := exists_left_of_forall₂ h.metrics hm
  obtain ⟨e, hlower, rfl⟩ := Metric.resolve_eq_ok.mp hres
  exact Expr.inScope_of_lower hlower

theorem inScope_row (h : Resolved r s) :
    ∀ row ∈ s.restrictions.rows, row.subject.InScope s.scope := by
  intro row hrow
  obtain ⟨_, -, hres⟩ := exists_left_of_forall₂ h.restrictions.rows hrow
  obtain ⟨e, hlower, _, -, rfl⟩ := Filter.resolve_eq_ok.mp hres
  exact Expr.inScope_of_lower hlower

theorem inScope_group (h : Resolved r s) : ∀ e ∈ s.restrictions.groups, e.InScope s.scope := by
  intro e he
  obtain ⟨_, -, row, hres, rfl⟩ := exists_left_of_forall₂ h.restrictions.groups he
  obtain ⟨_, hlower, k, -, rfl⟩ := Filter.resolve_eq_ok.mp hres
  exact k.inScope_on (Expr.inScope_of_lower hlower)

end Resolved

end Selection

end CubeSql
