import CubeSql.Proofs.Interpretation
import Mathlib.Tactic.SplitIfs

/-!
# The columns that an expression reads

The set of columns of an expression holds every column that occurs in it, and the value of the expression
follows from the values of these columns alone.
-/

namespace CubeSql.Sql

universe u

theorem ColumnRef.mem_insert {c d : ColumnRef} {cs : List ColumnRef} : c ∈ d.insert cs ↔ c = d ∨ c ∈ cs := by
  induction cs with
  | nil => simp [insert]
  | cons first cs ih =>
    unfold insert
    split_ifs with hbefore hsame
    · exact List.mem_cons
    · rw [hsame, List.mem_cons, or_self_left]
    · rw [List.mem_cons, ih, List.mem_cons, or_left_comm]

theorem Expr.mem_columns_iff {c : ColumnRef} {e : Expr} : c ∈ e.columns ↔ c ∈ e.occurrences := by
  unfold columns
  induction e.occurrences with
  | nil => rfl
  | cons first rest ih => rw [List.foldr_cons, ColumnRef.mem_insert, ih, List.mem_cons]

theorem Expr.columns_eq_nil_iff {e : Expr} : e.columns = [] ↔ e.occurrences = [] := by
  simp only [List.eq_nil_iff_forall_not_mem, mem_columns_iff]

namespace Interpretation

variable {V : Type u} (I : Interpretation V) {ρ σ : ColumnRef → V}

mutual

/-- The value of an expression depends on the columns that occur in it. -/
theorem eval_congr : ∀ {e : Expr}, (∀ c ∈ e.occurrences, ρ c = σ c) → I.eval ρ e = I.eval σ e
  | .column table name, h => by
    rw [eval, eval, h (table, name) List.mem_cons_self]
  | .literal v, _ => by
    rw [eval, eval]
  | .call f args, h => by
    rw [eval, eval, evalAll_congr h]
  | .case branches otherwise, h => by
    obtain ⟨hbranches, hotherwise⟩ := List.forall_mem_append.mp h
    rw [eval, eval, evalBranches_congr hbranches, eval_congr hotherwise]
  | .binary op left right, h => by
    obtain ⟨hleft, hright⟩ := List.forall_mem_append.mp h
    rw [eval, eval, eval_congr hleft, eval_congr hright]
  | .aggregate a arg, h => by
    have harg : ∀ c ∈ arg.occurrences, ρ c = σ c := h
    rw [eval, eval, eval_congr harg]
  | .inList subject items negated, h => by
    obtain ⟨hsubject, hitems⟩ := List.forall_mem_append.mp h
    rw [eval, eval, eval_congr hsubject, evalAll_congr hitems]
  | .between subject low high, h => by
    obtain ⟨hbounds, hhigh⟩ := List.forall_mem_append.mp h
    obtain ⟨hsubject, hlow⟩ := List.forall_mem_append.mp hbounds
    rw [eval, eval, eval_congr hsubject, eval_congr hlow, eval_congr hhigh]
  | .isNull subject negated, h => by
    have hsubject : ∀ c ∈ subject.occurrences, ρ c = σ c := h
    rw [eval, eval, eval_congr hsubject]
  | .interval quantity unit, _ => by
    rw [eval, eval]

theorem evalAll_congr : ∀ {es : List Expr}, (∀ c ∈ Expr.occurrencesAll es, ρ c = σ c) →
    I.evalAll ρ es = I.evalAll σ es
  | [], _ => by
    rw [evalAll, evalAll]
  | e :: es, h => by
    obtain ⟨hfirst, hrest⟩ := List.forall_mem_append.mp h
    rw [evalAll, evalAll, eval_congr hfirst, evalAll_congr hrest]

theorem evalBranches_congr : ∀ {bs : List (Expr × Expr)},
    (∀ c ∈ Expr.occurrencesBranches bs, ρ c = σ c) → I.evalBranches ρ bs = I.evalBranches σ bs
  | [], _ => by
    rw [evalBranches, evalBranches]
  | (condition, result) :: bs, h => by
    obtain ⟨hfirst, hrest⟩ := List.forall_mem_append.mp h
    obtain ⟨hcondition, hresult⟩ := List.forall_mem_append.mp hfirst
    rw [evalBranches, evalBranches, eval_congr hcondition, eval_congr hresult, evalBranches_congr hrest]

end

/-- An expression without columns has one value everywhere. -/
theorem eval_eq_of_columns_eq_nil {e : Expr} (h : e.columns = []) : I.eval ρ e = I.eval σ e := by
  refine I.eval_congr fun c hc => ?_
  rw [Expr.columns_eq_nil_iff.mp h] at hc
  cases hc

end Interpretation

end CubeSql.Sql
