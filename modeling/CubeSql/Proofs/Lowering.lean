import CubeSql.Plan.Condition
import CubeSql.Proofs.Success

/-!
# Lowered expressions name tables in scope

Lowering an expression keeps its columns in their order and gives each the qualifier of the table that it
names. Every such qualifier is that of some table in scope, and a condition stated of an expression reads
no columns besides those of the expression.
-/

namespace CubeSql

/-! ## Qualifiers -/

namespace Scope

/-- The qualifiers of the tables in scope, that of the base table first. -/
def qualifiers (s : Scope) : List (Option String) :=
  (List.range (s.joined.length + 1)).map s.qualifierAt

theorem position?_le {s : Scope} {name : String} {position : Nat}
    (h : s.position? name = some position) : position ≤ s.joined.length := by
  unfold position? at h
  split_ifs at h with hb
  · cases h
    exact Nat.zero_le _
  · obtain ⟨i, hi, rfl⟩ := Option.map_eq_some_iff.mp h
    have hlt : i < s.joined.length := (List.idxOf?_eq_some_iff.mp hi).1
    exact hlt

theorem qualifierAt_mem {s : Scope} {position : Nat} (h : position ≤ s.joined.length) :
    s.qualifierAt position ∈ s.qualifiers :=
  List.mem_map.mpr ⟨position, List.mem_range.mpr (Nat.lt_succ_of_le h), rfl⟩

/-- A column is qualified by a table in scope. -/
theorem qualifier_mem {s : Scope} {table q : Option String} (h : s.qualifier table = .ok q) :
    q ∈ s.qualifiers := by
  cases table with
  | none =>
    cases h
    exact qualifierAt_mem (Nat.zero_le _)
  | some name =>
    simp only [qualifier] at h
    cases hp : s.position? name with
    | none => simp [hp] at h
    | some position =>
      simp only [hp] at h
      cases h
      exact qualifierAt_mem (position?_le hp)

/-- Over one table no column is qualified. -/
theorem eq_none_of_mem_qualifiers {s : Scope} (h : s.joined = []) {q : Option String}
    (hq : q ∈ s.qualifiers) : q = none := by
  obtain ⟨position, -, rfl⟩ := List.mem_map.mp hq
  simp [qualifierAt, isQualified, h]

end Scope

/-! ## Columns -/

namespace Expr

mutual

/-- The columns that an expression names, from left to right, each with the table that it names. -/
def mentions : Expr → List (Option String × String)
  | .column table name => [(table, name)]
  | .literal _ => []
  | .call _ args => mentionsAll args
  | .aggregate _ arg => mentions arg
  | .case branches otherwise => mentionsBranches branches ++ mentions otherwise
  | .binary _ left right => mentions left ++ mentions right

/-- The columns that several expressions name. -/
def mentionsAll : List Expr → List (Option String × String)
  | [] => []
  | e :: es => mentions e ++ mentionsAll es

/-- The columns that several branches name. -/
def mentionsBranches : List (Expr × Expr) → List (Option String × String)
  | [] => []
  | (condition, result) :: branches =>
    mentions condition ++ mentions result ++ mentionsBranches branches

end

/-- A lowered column is the named column under the qualifier of its table. -/
def Qualified (qualify : Option String → Except Error (Option String))
    (c : Option String × String) (c' : Sql.ColumnRef) : Prop :=
  qualify c.1 = .ok c'.1 ∧ c.2 = c'.2

variable {qualify : Option String → Except Error (Option String)}

mutual

/-- Lowering keeps the columns of an expression in their order. -/
theorem qualified_of_lowerWith : ∀ {e : Expr} {e' : Sql.Expr}, e.lowerWith qualify = .ok e' →
    List.Forall₂ (Qualified qualify) e.mentions e'.occurrences
  | .column table name, e', h => by
    simp only [lowerWith, bind_eq_ok, pure_eq_ok] at h
    obtain ⟨q, hq, rfl⟩ := h
    exact .cons ⟨hq, rfl⟩ .nil
  | .literal l, e', h => by
    simp only [lowerWith, pure_eq_ok] at h
    subst h
    exact .nil
  | .call f args, e', h => by
    simp only [lowerWith, bind_eq_ok, pure_eq_ok] at h
    obtain ⟨args', hargs, rfl⟩ := h
    exact qualified_of_lowerAllWith hargs
  | .aggregate a arg, e', h => by
    simp only [lowerWith, bind_eq_ok, pure_eq_ok] at h
    obtain ⟨arg', harg, rfl⟩ := h
    have hmentions := qualified_of_lowerWith harg
    exact hmentions
  | .case branches otherwise, e', h => by
    simp only [lowerWith, bind_eq_ok, pure_eq_ok] at h
    obtain ⟨branches', hb, otherwise', ho, rfl⟩ := h
    exact List.rel_append (qualified_of_lowerBranchesWith hb) (qualified_of_lowerWith ho)
  | .binary op left right, e', h => by
    simp only [lowerWith, bind_eq_ok, pure_eq_ok] at h
    obtain ⟨left', hl, right', hr, rfl⟩ := h
    exact List.rel_append (qualified_of_lowerWith hl) (qualified_of_lowerWith hr)

theorem qualified_of_lowerAllWith : ∀ {es : List Expr} {es' : List Sql.Expr},
    lowerAllWith qualify es = .ok es' →
    List.Forall₂ (Qualified qualify) (mentionsAll es) (Sql.Expr.occurrencesAll es')
  | [], es', h => by
    simp only [lowerAllWith, pure_eq_ok] at h
    subst h
    exact .nil
  | e :: es, es', h => by
    simp only [lowerAllWith, bind_eq_ok, pure_eq_ok] at h
    obtain ⟨e', he, es'', hes, rfl⟩ := h
    exact List.rel_append (qualified_of_lowerWith he) (qualified_of_lowerAllWith hes)

theorem qualified_of_lowerBranchesWith : ∀ {bs : List (Expr × Expr)} {bs' : List (Sql.Expr × Sql.Expr)},
    lowerBranchesWith qualify bs = .ok bs' →
    List.Forall₂ (Qualified qualify) (mentionsBranches bs) (Sql.Expr.occurrencesBranches bs')
  | [], bs', h => by
    simp only [lowerBranchesWith, pure_eq_ok] at h
    subst h
    exact .nil
  | (condition, result) :: bs, bs', h => by
    simp only [lowerBranchesWith, bind_eq_ok, pure_eq_ok] at h
    obtain ⟨condition', hc, result', hr, bs'', hbs, rfl⟩ := h
    exact List.rel_append (List.rel_append (qualified_of_lowerWith hc) (qualified_of_lowerWith hr))
      (qualified_of_lowerBranchesWith hbs)

end

end Expr

theorem Expr.forall₂_of_lowerAllWith {qualify : Option String → Except Error (Option String)} {es : List Expr}
    {es' : List Sql.Expr} (h : lowerAllWith qualify es = .ok es') :
    List.Forall₂ (fun e e' => e.lowerWith qualify = .ok e') es es' := by
  induction es generalizing es' with
  | nil =>
    simp only [lowerAllWith, pure_eq_ok] at h
    subst h
    exact .nil
  | cons e es ih =>
    simp only [lowerAllWith, bind_eq_ok, pure_eq_ok] at h
    obtain ⟨e', he, es'', hes, rfl⟩ := h
    exact .cons he (ih hes)

theorem Expr.forall₂_of_lowerBranchesWith {qualify : Option String → Except Error (Option String)}
    {bs : List (Expr × Expr)} {bs' : List (Sql.Expr × Sql.Expr)}
    (h : lowerBranchesWith qualify bs = .ok bs') : List.Forall₂ (fun b b' =>
      b.1.lowerWith qualify = .ok b'.1 ∧ b.2.lowerWith qualify = .ok b'.2) bs bs' := by
  induction bs generalizing bs' with
  | nil =>
    simp only [lowerBranchesWith, pure_eq_ok] at h
    subst h
    exact .nil
  | cons b bs ih =>
    simp only [lowerBranchesWith, bind_eq_ok, pure_eq_ok] at h
    obtain ⟨condition', hc, result', hr, bs'', hbs, rfl⟩ := h
    exact .cons ⟨hc, hr⟩ (ih hbs)

theorem Expr.eq_column_of_lower {s : Scope} {table : Option String} {name : String} {e : Sql.Expr}
    (h : (Expr.column table name).lower s = .ok e) : ∃ q, e = .column q name := by
  simp only [lower, lowerWith, bind_eq_ok, pure_eq_ok] at h
  obtain ⟨q, -, rfl⟩ := h
  exact ⟨q, rfl⟩

/-! ## Scoped expressions -/

/-- Every column of the expression is qualified by a table in scope. -/
def Sql.Expr.InScope (s : Scope) (e : Sql.Expr) : Prop := ∀ c ∈ e.occurrences, c.1 ∈ s.qualifiers

theorem Expr.inScope_of_lower {s : Scope} {e : Expr} {e' : Sql.Expr} (h : e.lower s = .ok e') :
    e'.InScope s := by
  intro c hc
  obtain ⟨i, hi, rfl⟩ := List.getElem_of_mem hc
  have hq := qualified_of_lowerWith h
  have hi' : i < e.mentions.length := hq.length_eq ▸ hi
  exact Scope.qualifier_mem (hq.get hi' hi).1

namespace Sql.Expr

theorem occurrencesAll_map_literal (values : List Value) :
    occurrencesAll (values.map .literal) = [] := by
  induction values with
  | nil => rfl
  | cons v vs ih => simp [occurrencesAll, occurrences, ih]

variable {s : Scope}

theorem inScope_literal (v : Value) : (literal v).InScope s := nofun

theorem InScope.minus_interval {e : Expr} (h : e.InScope s) (quantity : Int) (unit : TimeGrain) :
    (e.minus (.interval quantity unit)).InScope s := by
  intro c hc
  simp only [minus, occurrences, List.append_nil] at hc
  exact h c hc

end Sql.Expr

/-- A condition reads the columns of what it is stated of. -/
theorem Condition.occurrences_on (k : Condition) (e : Sql.Expr) :
    (k.on e).occurrences = e.occurrences := by
  cases k with
  | compare op value => simp [on, Sql.Expr.occurrences]
  | oneOf values negated =>
    simp [on, Sql.Expr.occurrences, Sql.Expr.occurrencesAll_map_literal]
  | between low high => simp [on, Sql.Expr.occurrences]
  | isNull negated => simp [on, Sql.Expr.occurrences]

theorem Condition.inScope_on {s : Scope} {e : Sql.Expr} (k : Condition) (h : e.InScope s) :
    (k.on e).InScope s := by
  unfold Sql.Expr.InScope
  rw [k.occurrences_on]
  exact h

end CubeSql
