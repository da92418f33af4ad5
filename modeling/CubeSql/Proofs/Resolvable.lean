import CubeSql.Proofs.Selection

/-!
# What can be resolved

A definition can be lowered exactly if every table that it names is in scope, and a filter states a condition
exactly if its operator takes its value. Nothing else can go wrong when the parts of a request are resolved.
-/

namespace CubeSql

theorem exists_forall₂_iff {α β : Type} {R : α → β → Prop} {as : List α} :
    (∃ bs, List.Forall₂ R as bs) ↔ ∀ a ∈ as, ∃ b, R a b := by
  induction as with
  | nil => exact ⟨fun _ => nofun, fun _ => ⟨[], .nil⟩⟩
  | cons a as ih =>
    rw [List.forall_mem_cons, ← ih]
    constructor
    · rintro ⟨_, _ | ⟨hab, hrest⟩⟩
      exact ⟨⟨_, hab⟩, _, hrest⟩
    · rintro ⟨⟨b, hab⟩, bs, hrest⟩
      exact ⟨b :: bs, .cons hab hrest⟩

/-! ## Definitions -/

theorem Scope.exists_qualifier_iff {s : Scope} {table : Option String} :
    (∃ q, s.qualifier table = .ok q) ↔ ∀ name ∈ table, name = s.base ∨ name ∈ s.joined := by
  cases table with
  | none => exact ⟨fun _ => nofun, fun _ => ⟨_, rfl⟩⟩
  | some name =>
    have hposition : (s.position? name).isSome ↔ name = s.base ∨ name ∈ s.joined := by
      unfold position?
      split_ifs with hbase
      · simp [hbase]
      · simp [hbase, List.isSome_idxOf?]
    simp only [Option.mem_def, Option.some.injEq, forall_eq', ← hposition, qualifier]
    cases s.position? name with
    | none => simp
    | some position => simp

namespace Expr

variable {qualify : Option String → Except Error (Option String)}

mutual

/-- An expression can be lowered if all of its columns can be qualified. -/
theorem exists_lowerWith : ∀ {e : Expr}, (∀ c ∈ e.mentions, ∃ q, qualify c.1 = .ok q) →
    ∃ e', e.lowerWith qualify = .ok e'
  | .column table name, h => by
    obtain ⟨q, hq⟩ := h (table, name) List.mem_cons_self
    exact ⟨.column q name, by rw [lowerWith, hq]; rfl⟩
  | .literal l, _ => ⟨.literal l.value, rfl⟩
  | .call f args, h => by
    have hmentions : ∀ c ∈ mentionsAll args, ∃ q, qualify c.1 = .ok q := h
    obtain ⟨args', hargs⟩ := exists_lowerAllWith hmentions
    exact ⟨.call f args', by rw [lowerWith, hargs]; rfl⟩
  | .aggregate a arg, h => by
    obtain ⟨arg', harg⟩ := exists_lowerWith (e := arg) h
    exact ⟨.aggregate a arg', by rw [lowerWith, harg]; rfl⟩
  | .case branches otherwise, h => by
    obtain ⟨hb, ho⟩ := List.forall_mem_append.mp h
    obtain ⟨branches', hbranches⟩ := exists_lowerBranchesWith hb
    obtain ⟨otherwise', hotherwise⟩ := exists_lowerWith ho
    exact ⟨.case branches' otherwise', by rw [lowerWith, hbranches, hotherwise]; rfl⟩
  | .binary op left right, h => by
    obtain ⟨hl, hr⟩ := List.forall_mem_append.mp h
    obtain ⟨left', hleft⟩ := exists_lowerWith hl
    obtain ⟨right', hright⟩ := exists_lowerWith hr
    exact ⟨.binary (.of op) left' right', by rw [lowerWith, hleft, hright]; rfl⟩

theorem exists_lowerAllWith : ∀ {es : List Expr}, (∀ c ∈ mentionsAll es, ∃ q, qualify c.1 = .ok q) →
    ∃ es', lowerAllWith qualify es = .ok es'
  | [], _ => ⟨[], rfl⟩
  | e :: es, h => by
    obtain ⟨hfirst, hrest⟩ := List.forall_mem_append.mp h
    obtain ⟨e', he⟩ := exists_lowerWith hfirst
    obtain ⟨es', hes⟩ := exists_lowerAllWith hrest
    exact ⟨e' :: es', by rw [lowerAllWith, he, hes]; rfl⟩

theorem exists_lowerBranchesWith : ∀ {bs : List (Expr × Expr)},
    (∀ c ∈ mentionsBranches bs, ∃ q, qualify c.1 = .ok q) → ∃ bs', lowerBranchesWith qualify bs = .ok bs'
  | [], _ => ⟨[], rfl⟩
  | (condition, result) :: bs, h => by
    obtain ⟨hfirst, hrest⟩ := List.forall_mem_append.mp h
    obtain ⟨hc, hr⟩ := List.forall_mem_append.mp hfirst
    obtain ⟨condition', hcondition⟩ := exists_lowerWith hc
    obtain ⟨result', hresult⟩ := exists_lowerWith hr
    obtain ⟨bs', hbs⟩ := exists_lowerBranchesWith hrest
    exact ⟨(condition', result') :: bs', by rw [lowerBranchesWith, hcondition, hresult, hbs]; rfl⟩

end

/-- All tables that the expression names are in scope. -/
def Within (scope : Scope) (e : Expr) : Prop :=
  ∀ c ∈ e.mentions, ∀ name ∈ c.1, name = scope.base ∨ name ∈ scope.joined

/-- An expression can be lowered exactly if all tables that it names are in scope. -/
theorem exists_lower_iff {scope : Scope} {e : Expr} :
    (∃ e', e.lower scope = .ok e') ↔ e.Within scope := by
  constructor
  · rintro ⟨e', h⟩ c hc
    obtain ⟨c', -, hq, -⟩ := exists_right_of_forall₂ (qualified_of_lowerWith h) hc
    exact Scope.exists_qualifier_iff.mp ⟨_, hq⟩
  · intro h
    exact exists_lowerWith fun c hc => Scope.exists_qualifier_iff.mpr (h c hc)

/-- The conjuncts of an expression name its columns. -/
theorem flatMap_mentions_conjuncts (e : Expr) : e.conjuncts.flatMap mentions = e.mentions := by
  induction e using conjuncts.induct with
  | case1 left right ihl ihr => rw [conjuncts, List.flatMap_append, ihl, ihr, mentions]
  | case2 e h => rw [conjuncts.eq_2 e h, List.flatMap_singleton]

theorem within_conjuncts_iff {scope : Scope} {e : Expr} :
    (∀ part ∈ e.conjuncts, part.Within scope) ↔ e.Within scope := by
  unfold Within
  rw [← flatMap_mentions_conjuncts e]
  simp only [List.mem_flatMap]
  constructor
  · rintro h c ⟨part, hpart, hc⟩
    exact h part hpart c hc
  · intro h part hpart c hc
    exact h c ⟨part, hpart, hc⟩

end Expr

/-! ## Values -/

/-- The operator takes the value: a list needs an item, a range two bounds, a pattern is a text, all other
comparisons are with a constant that is not absent, and a check for absence looks at no value. -/
def FilterOp.Takes : FilterOp → Value → Prop
  | .isIn, v => v ≠ .null ∧ v ≠ .array []
  | .notIn, v => v ≠ .null ∧ v ≠ .array []
  | .between, v => ∃ low high, v = .array [low, high]
  | .isNull, _ => True
  | .isNotNull, _ => True
  | .like, v => ∃ s, v = .text s
  | _, v => ∃ s, v = .scalar s ∧ s ≠ .null

namespace Filter

theorem isEmpty_listed_iff {v : Value} : (listed v).isEmpty = true ↔ v = .null ∨ v = .array [] := by
  match v with
  | .array items => cases items <;> simp [listed]
  | .scalar .null => simp [listed]
  | .scalar (.bool _) => simp [listed]
  | .scalar (.number _) => simp [listed]
  | .scalar (.text _) => simp [listed]
  | .object _ => simp [listed]

theorem exists_comparison_iff {op : BinaryOp} {v : Value} :
    (∃ k, comparison (.of op) v = .ok k) ↔ ∃ s, v = .scalar s ∧ s ≠ .null := by
  match v with
  | .array _ => simp [comparison]
  | .object _ => simp [comparison]
  | .scalar .null => simp [comparison]
  | .scalar (.bool _) => simp [comparison]
  | .scalar (.number _) => simp [comparison]
  | .scalar (.text _) => simp [comparison]

theorem exists_pattern_iff {v : Value} : (∃ k, comparison .like v = .ok k) ↔ ∃ s, v = .text s := by
  match v with
  | .array _ => simp [comparison]
  | .object _ => simp [comparison]
  | .scalar .null => simp [comparison]
  | .scalar (.bool _) => simp [comparison]
  | .scalar (.number _) => simp [comparison]
  | .scalar (.text _) => simp [comparison]

theorem exists_conditionOf_iff {op : FilterOp} {v : Value} :
    (∃ k, conditionOf op v = .ok k) ↔ op.Takes v := by
  have hlist : (listed v).isEmpty = true ↔ ¬ (v ≠ .null ∧ v ≠ .array []) := by
    rw [isEmpty_listed_iff]
    tauto
  cases op with
  | eq => exact exists_comparison_iff
  | neq => exact exists_comparison_iff
  | gt => exact exists_comparison_iff
  | gte => exact exists_comparison_iff
  | lt => exact exists_comparison_iff
  | lte => exact exists_comparison_iff
  | like => exact exists_pattern_iff
  | isIn => by_cases h : v ≠ .null ∧ v ≠ .array [] <;> simp [conditionOf, FilterOp.Takes, hlist, h]
  | notIn => by_cases h : v ≠ .null ∧ v ≠ .array [] <;> simp [conditionOf, FilterOp.Takes, hlist, h]
  | between =>
    match v with
    | .array [low, high] => simp [conditionOf, FilterOp.Takes]
    | .array [] => simp [conditionOf, FilterOp.Takes]
    | .array [_] => simp [conditionOf, FilterOp.Takes]
    | .array (_ :: _ :: _ :: _) => simp [conditionOf, FilterOp.Takes]
    | .scalar _ => simp [conditionOf, FilterOp.Takes]
    | .object _ => simp [conditionOf, FilterOp.Takes]
  | isNull => simp [conditionOf, FilterOp.Takes]
  | isNotNull => simp [conditionOf, FilterOp.Takes]

/-- A filter states a condition exactly if its operator takes its value. -/
theorem exists_condition_iff {f : Filter} : (∃ k, f.condition = .ok k) ↔ f.op.Takes f.value.value := by
  rw [← exists_conditionOf_iff, condition]
  cases conditionOf f.op f.value.value <;> simp [Except.mapError]

theorem describe_of_condition {f : Filter} {k : Condition} (h : f.condition = .ok k) :
    f.describe = .ok ((k.on f.field.definition.unqualified).text .plain) := by
  rw [describe, h]
  rfl

/-- The definition of the filter is within the scope, and its operator takes its value. -/
def Fits (scope : Scope) (f : Filter) : Prop :=
  f.field.definition.Within scope ∧ f.op.Takes f.value.value

/-- A filter can be resolved exactly if it fits. -/
theorem exists_resolve_iff {scope : Scope} {f : Filter} :
    (∃ row, f.resolve scope = .ok row) ↔ f.Fits scope := by
  rw [Fits, ← Expr.exists_lower_iff, ← exists_condition_iff]
  constructor
  · rintro ⟨row, h⟩
    obtain ⟨e, he, k, hk, -⟩ := resolve_eq_ok.mp h
    exact ⟨⟨e, he⟩, k, hk⟩
  · rintro ⟨⟨e, he⟩, k, hk⟩
    exact ⟨_, resolve_eq_ok.mpr ⟨e, he, k, hk, rfl⟩⟩

end Filter

/-! ## Parts of a request -/

/-- The tables of a request. -/
def Request.scope (r : Request) : Scope := ⟨r.table, r.joins.map Join.table⟩

theorem Dimension.exists_resolve_iff {scope : Scope} {d : Dimension} :
    (∃ col, d.resolve scope = .ok col) ↔ d.field.definition.Within scope := by
  rw [← Expr.exists_lower_iff]
  constructor
  · rintro ⟨col, h⟩
    obtain ⟨e, he, -⟩ := resolve_eq_ok.mp h
    exact ⟨e, he⟩
  · rintro ⟨e, he⟩
    exact ⟨_, resolve_eq_ok.mpr ⟨e, he, rfl⟩⟩

theorem Metric.exists_resolve_iff {scope : Scope} {m : Metric} :
    (∃ col, m.resolve scope = .ok col) ↔ m.field.definition.Within scope := by
  rw [← Expr.exists_lower_iff]
  constructor
  · rintro ⟨col, h⟩
    obtain ⟨e, he, -⟩ := resolve_eq_ok.mp h
    exact ⟨e, he⟩
  · rintro ⟨e, he⟩
    exact ⟨_, resolve_eq_ok.mpr ⟨e, he, rfl⟩⟩

/-- A join of a request stands at its position, so that only its condition matters. -/
theorem Join.exists_resolve_iff {r : Request} {j : Join} {position : Nat}
    (hposition : (j, position) ∈ r.joins.zipIdx) :
    (∃ qj, j.resolve r.scope position = .ok qj) ↔ j.on.Within r.scope := by
  have hsource : ∃ source, r.scope.joinSource position = .ok source := by
    have hget : r.joins[position]? = some j := List.mem_zipIdx_iff_getElem?.mp hposition
    exact ⟨_, Scope.joinSource_eq_ok.mpr ⟨j.table, by simp [Request.scope, hget], rfl⟩⟩
  have hon : (∃ on, List.Forall₂ (fun e e' => e.lower r.scope = .ok e') j.on.conjuncts on) ↔
      j.on.Within r.scope := by
    rw [exists_forall₂_iff, ← Expr.within_conjuncts_iff]
    simp only [Expr.exists_lower_iff]
  rw [← hon]
  constructor
  · rintro ⟨qj, h⟩
    obtain ⟨source, -, on, hon, -⟩ := resolve_eq_ok.mp h
    exact ⟨on, hon⟩
  · rintro ⟨on, hon⟩
    obtain ⟨source, hsource⟩ := hsource
    exact ⟨_, resolve_eq_ok.mpr ⟨source, hsource, on, hon, rfl⟩⟩

end CubeSql
