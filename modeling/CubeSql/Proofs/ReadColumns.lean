import CubeSql.Proofs.ComparisonFilters
import Mathlib.Data.List.Sort
import Mathlib.Data.Prod.Lex
import Mathlib.Data.String.Basic
import Mathlib.Order.WithBot

/-!
# Exactly the columns that an expression reads

The set of columns of an expression holds a column if the column stands somewhere in the expression, which is if
the value of the expression may depend on it. As the set is a list in ascending order, two expressions that depend
on the same columns have equal lists; so a filter that has the columns of an anchor depends on no other column.
-/

namespace CubeSql

universe u

namespace Sql

/-! ## The order of columns -/

namespace ColumnRef

/-- The place of a column in the order, which goes by the qualifier, of which none comes first, and by the name. -/
def rank : ColumnRef → WithBot String ×ₗ String
  | (none, name) => toLex (⊥, name)
  | (some table, name) => toLex (↑table, name)

theorem rank_injective : Function.Injective rank
  | (none, _), (none, _), h => by
    cases h
    rfl
  | (some _, _), (some _, _), h => by
    cases h
    rfl

theorem before_iff {c d : ColumnRef} : c.before d = true ↔ c.rank < d.rank := by
  match c, d with
  | (none, _), (none, _) =>
    simp only [before, rank, Prod.Lex.toLex_lt_toLex, lt_irrefl, false_or, true_and, decide_eq_true_eq]
  | (none, _), (some _, _) =>
    simp only [before, rank, Prod.Lex.toLex_lt_toLex, WithBot.bot_lt_coe, true_or]
  | (some _, _), (none, _) =>
    simp only [before, rank, Prod.Lex.toLex_lt_toLex, not_lt_bot, WithBot.coe_ne_bot, false_and, or_false,
      Bool.false_eq_true]
  | (some _, _), (some _, _) =>
    simp only [before, rank, Prod.Lex.toLex_lt_toLex, WithBot.coe_lt_coe, WithBot.coe_inj, Bool.or_eq_true,
      Bool.and_eq_true, decide_eq_true_eq, beq_iff_eq]

/-- The columns stand in ascending order, so that none is repeated. -/
def Ascending (cs : List ColumnRef) : Prop := (cs.map rank).Pairwise (· < ·)

theorem ascending_insert (c : ColumnRef) {cs : List ColumnRef} (h : Ascending cs) : Ascending (c.insert cs) := by
  induction cs with
  | nil => exact List.pairwise_singleton _ _
  | cons d cs ih =>
    obtain ⟨hd, hcs⟩ := List.pairwise_cons.mp h
    have hbefore_all : ∀ x ∈ cs, d.rank < x.rank := fun x hx => hd x.rank (List.mem_map_of_mem hx)
    unfold insert
    split_ifs with hbefore hsame
    · have hcd : c.rank < d.rank := before_iff.mp hbefore
      refine List.pairwise_cons.mpr ⟨?_, h⟩
      refine List.forall_mem_cons.mpr ⟨hcd, fun r hr => hcd.trans (hd r hr)⟩
    · exact h
    · have hdc : d.rank < c.rank :=
        lt_of_le_of_ne (not_lt.mp (mt before_iff.mpr hbefore)) (rank_injective.ne (Ne.symm hsame))
      refine List.pairwise_cons.mpr ⟨?_, ih hcs⟩
      rw [List.forall_mem_map]
      intro x hx
      rcases mem_insert.mp hx with rfl | hx
      · exact hdc
      · exact hbefore_all x hx

/-- Ascending lists of the same columns are equal. -/
theorem eq_of_ascending {cs ds : List ColumnRef} (hcs : Ascending cs) (hds : Ascending ds)
    (h : ∀ c, c ∈ cs ↔ c ∈ ds) : cs = ds := by
  have hranks : ∀ r, r ∈ cs.map rank ↔ r ∈ ds.map rank := by
    intro r
    simp only [List.mem_map, h]
  exact List.map_injective_iff.mpr rank_injective (hcs.eq_of_mem_iff hds hranks)

end ColumnRef

namespace Expr

theorem ascending_columns (e : Expr) : ColumnRef.Ascending e.columns := by
  unfold columns
  induction e.occurrences with
  | nil => exact .nil
  | cons c cs ih => exact ColumnRef.ascending_insert c ih

/-- Expressions have the same list of columns exactly if they have the same columns. -/
theorem columns_eq_iff {e e' : Expr} : e.columns = e'.columns ↔ ∀ c, c ∈ e.columns ↔ c ∈ e'.columns := by
  constructor
  · intro h c
    rw [h]
  · exact ColumnRef.eq_of_ascending e.ascending_columns e'.ascending_columns

/-! ## Occurring -/

/-- The expression is one of those that the other is directly made of. -/
inductive Part : Expr → Expr → Prop where
  | argument {f : Function} {args : List Expr} {arg : Expr} (h : arg ∈ args) : Part arg (.call f args)
  | condition {branches : List (Expr × Expr)} {otherwise condition result : Expr}
      (h : (condition, result) ∈ branches) : Part condition (.case branches otherwise)
  | result {branches : List (Expr × Expr)} {otherwise condition result : Expr}
      (h : (condition, result) ∈ branches) : Part result (.case branches otherwise)
  | otherwise {branches : List (Expr × Expr)} {otherwise : Expr} : Part otherwise (.case branches otherwise)
  | left {op : Operator} {left right : Expr} : Part left (.binary op left right)
  | right {op : Operator} {left right : Expr} : Part right (.binary op left right)
  | aggregated {a : Aggregation} {arg : Expr} : Part arg (.aggregate a arg)
  | member {subject : Expr} {items : List Expr} {negated : Bool} : Part subject (.inList subject items negated)
  | item {subject : Expr} {items : List Expr} {negated : Bool} {item : Expr} (h : item ∈ items) :
      Part item (.inList subject items negated)
  | bounded {subject low high : Expr} : Part subject (.between subject low high)
  | low {subject low high : Expr} : Part low (.between subject low high)
  | high {subject low high : Expr} : Part high (.between subject low high)
  | absent {subject : Expr} {negated : Bool} : Part subject (.isNull subject negated)

/-- The expression stands somewhere in the other: it is the other, or a part of what stands in it. -/
def OccursIn : Expr → Expr → Prop := Relation.ReflTransGen Part

theorem occurrences_subset_all {e : Expr} {es : List Expr} (h : e ∈ es) :
    e.occurrences ⊆ occurrencesAll es := by
  induction es with
  | nil => cases h
  | cons first es ih =>
    rw [occurrencesAll]
    rcases List.mem_cons.mp h with rfl | h
    · exact List.subset_append_left _ _
    · exact List.subset_append_of_subset_right _ (ih h)

theorem occurrences_subset_branches {condition result : Expr} {bs : List (Expr × Expr)}
    (h : (condition, result) ∈ bs) : condition.occurrences ++ result.occurrences ⊆ occurrencesBranches bs := by
  induction bs with
  | nil => cases h
  | cons b bs ih =>
    obtain ⟨c, r⟩ := b
    rw [occurrencesBranches]
    rcases List.mem_cons.mp h with heq | h
    · cases heq
      exact List.subset_append_left _ _
    · exact List.subset_append_of_subset_right _ (ih h)

theorem Part.occurrences_subset {part e : Expr} (h : Part part e) : part.occurrences ⊆ e.occurrences := by
  intro c hc
  cases h with
  | argument harg => exact occurrences_subset_all harg hc
  | condition hb =>
    exact List.mem_append_left _ (occurrences_subset_branches hb (List.mem_append_left _ hc))
  | result hb =>
    exact List.mem_append_left _ (occurrences_subset_branches hb (List.mem_append_right _ hc))
  | otherwise => exact List.mem_append_right _ hc
  | left => exact List.mem_append_left _ hc
  | right => exact List.mem_append_right _ hc
  | aggregated => exact hc
  | member => exact List.mem_append_left _ hc
  | item hitem => exact List.mem_append_right _ (occurrences_subset_all hitem hc)
  | bounded => exact List.mem_append_left _ (List.mem_append_left _ hc)
  | low => exact List.mem_append_left _ (List.mem_append_right _ hc)
  | high => exact List.mem_append_right _ hc
  | absent => exact hc

theorem OccursIn.occurrences_subset {part e : Expr} (h : OccursIn part e) :
    part.occurrences ⊆ e.occurrences := by
  induction h with
  | refl => exact List.Subset.refl _
  | tail _ hpart ih => exact List.Subset.trans ih hpart.occurrences_subset

variable {c : ColumnRef}

mutual

/-- Every column that is collected stands in the expression. -/
theorem occursIn_of_mem : ∀ {e : Expr}, c ∈ e.occurrences → (column c.1 c.2).OccursIn e
  | .column table name, h => by
    cases List.mem_singleton.mp h
    exact .refl
  | .literal _, h => nomatch h
  | .interval _ _, h => nomatch h
  | .call f args, h => by
    have hargs : c ∈ occurrencesAll args := h
    obtain ⟨arg, harg, hocc⟩ := exists_occursIn_all hargs
    exact hocc.tail (.argument harg)
  | .case branches otherwise, h => by
    rcases List.mem_append.mp h with h | h
    · obtain ⟨condition, result, hb, hocc | hocc⟩ := exists_occursIn_branches h
      · exact hocc.tail (.condition hb)
      · exact hocc.tail (.result hb)
    · exact (occursIn_of_mem h).tail .otherwise
  | .binary op left right, h => by
    rcases List.mem_append.mp h with h | h
    · exact (occursIn_of_mem h).tail .left
    · exact (occursIn_of_mem h).tail .right
  | .aggregate a arg, h => (occursIn_of_mem (e := arg) h).tail .aggregated
  | .inList subject items negated, h => by
    rcases List.mem_append.mp h with h | h
    · exact (occursIn_of_mem h).tail .member
    · obtain ⟨item, hitem, hocc⟩ := exists_occursIn_all h
      exact hocc.tail (.item hitem)
  | .between subject low high, h => by
    rcases List.mem_append.mp h with h | h
    · rcases List.mem_append.mp h with h | h
      · exact (occursIn_of_mem h).tail .bounded
      · exact (occursIn_of_mem h).tail .low
    · exact (occursIn_of_mem h).tail .high
  | .isNull subject negated, h => (occursIn_of_mem (e := subject) h).tail .absent

theorem exists_occursIn_all : ∀ {es : List Expr}, c ∈ occurrencesAll es →
    ∃ e ∈ es, (column c.1 c.2).OccursIn e
  | [], h => nomatch h
  | e :: es, h => by
    rcases List.mem_append.mp h with h | h
    · exact ⟨e, List.mem_cons_self, occursIn_of_mem h⟩
    · obtain ⟨e', he', hocc⟩ := exists_occursIn_all h
      exact ⟨e', List.mem_cons_of_mem _ he', hocc⟩

theorem exists_occursIn_branches : ∀ {bs : List (Expr × Expr)}, c ∈ occurrencesBranches bs →
    ∃ condition result, (condition, result) ∈ bs ∧
      ((column c.1 c.2).OccursIn condition ∨ (column c.1 c.2).OccursIn result)
  | [], h => nomatch h
  | (condition, result) :: bs, h => by
    rcases List.mem_append.mp h with h | h
    · refine ⟨condition, result, List.mem_cons_self, ?_⟩
      exact (List.mem_append.mp h).imp occursIn_of_mem occursIn_of_mem
    · obtain ⟨condition', result', hb, hocc⟩ := exists_occursIn_branches h
      exact ⟨condition', result', List.mem_cons_of_mem _ hb, hocc⟩

end

/-- The columns of an expression are those that stand somewhere in it. -/
theorem mem_columns_iff_occursIn {e : Expr} : c ∈ e.columns ↔ (column c.1 c.2).OccursIn e := by
  rw [mem_columns_iff]
  constructor
  · exact occursIn_of_mem
  · intro h
    exact h.occurrences_subset (List.mem_singleton_self _)

end Expr

/-! ## Depending -/

namespace Interpretation

/-- An expression is true if one of its columns is. -/
def anyColumn : Interpretation Bool where
  literal _ := false
  call _ args := args.any id
  case branches otherwise := branches.any (fun b => b.1 || b.2) || otherwise
  binary _ left right := left || right
  aggregate _ arg := arg
  inList subject items _ := subject || items.any id
  between subject low high := subject || low || high
  isNull subject _ := subject
  interval _ _ := false
  holds v := v = true

variable (ρ : ColumnRef → Bool)

mutual

theorem eval_anyColumn : ∀ e : Expr, anyColumn.eval ρ e = e.occurrences.any ρ
  | .column table name => by rw [eval, Expr.occurrences, List.any_cons, List.any_nil, Bool.or_false]
  | .literal _ => rfl
  | .interval _ _ => rfl
  | .call f args => by
    rw [eval, Expr.occurrences, ← evalAll_anyColumn args]
    rfl
  | .case branches otherwise => by
    rw [eval, Expr.occurrences, List.any_append, ← evalBranches_anyColumn branches, ← eval_anyColumn otherwise]
    rfl
  | .binary op left right => by
    rw [eval, Expr.occurrences, List.any_append, ← eval_anyColumn left, ← eval_anyColumn right]
    rfl
  | .aggregate a arg => by
    rw [eval, Expr.occurrences, ← eval_anyColumn arg]
    rfl
  | .inList subject items negated => by
    rw [eval, Expr.occurrences, List.any_append, ← eval_anyColumn subject, ← evalAll_anyColumn items]
    rfl
  | .between subject low high => by
    rw [eval, Expr.occurrences, List.any_append, List.any_append, ← eval_anyColumn subject,
      ← eval_anyColumn low, ← eval_anyColumn high]
    rfl
  | .isNull subject negated => by
    rw [eval, Expr.occurrences, ← eval_anyColumn subject]
    rfl

theorem evalAll_anyColumn : ∀ es : List Expr,
    (anyColumn.evalAll ρ es).any id = (Expr.occurrencesAll es).any ρ
  | [] => by rw [evalAll, Expr.occurrencesAll, List.any_nil, List.any_nil]
  | e :: es => by
    rw [evalAll, Expr.occurrencesAll, List.any_cons, List.any_append, ← eval_anyColumn e,
      ← evalAll_anyColumn es]
    rfl

theorem evalBranches_anyColumn : ∀ bs : List (Expr × Expr),
    (anyColumn.evalBranches ρ bs).any (fun b => b.1 || b.2) = (Expr.occurrencesBranches bs).any ρ
  | [] => by rw [evalBranches, Expr.occurrencesBranches, List.any_nil, List.any_nil]
  | (condition, result) :: bs => by
    rw [evalBranches, Expr.occurrencesBranches, List.any_cons, List.any_append, List.any_append,
      ← eval_anyColumn condition, ← eval_anyColumn result, ← evalBranches_anyColumn bs]

end

end Interpretation

namespace Expr

/-- For some database the value of the expression changes when that of the column alone does. -/
def DependsOn (e : Expr) (c : ColumnRef) : Prop :=
  ∃ (V : Type) (I : Interpretation V) (ρ σ : ColumnRef → V), (∀ d, d ≠ c → ρ d = σ d) ∧ I.eval ρ e ≠ I.eval σ e

theorem eval_eq_of_agree {V : Type u} (I : Interpretation V) {ρ σ : ColumnRef → V} {e : Expr}
    (h : ∀ c ∈ e.columns, ρ c = σ c) : I.eval ρ e = I.eval σ e :=
  I.eval_congr fun c hc => h c (mem_columns_iff.mpr hc)

/-- The columns of an expression are those that its value depends on. -/
theorem mem_columns_iff_dependsOn {e : Expr} {c : ColumnRef} : c ∈ e.columns ↔ e.DependsOn c := by
  constructor
  · intro hc
    -- The column alone is true on one side, and none is on the other.
    refine ⟨Bool, .anyColumn, fun d => decide (d = c), fun _ => false, fun d hd => decide_eq_false hd, ?_⟩
    have htrue : (e.occurrences.any fun d => decide (d = c)) = true :=
      List.any_eq_true.mpr ⟨c, mem_columns_iff.mp hc, decide_eq_true rfl⟩
    have hfalse : (e.occurrences.any fun _ => false) = false := List.any_eq_false.mpr fun _ _ => nofun
    rw [Interpretation.eval_anyColumn, Interpretation.eval_anyColumn, htrue, hfalse]
    exact nofun
  · rintro ⟨V, I, ρ, σ, hagree, hdiffer⟩
    by_contra hc
    refine hdiffer (eval_eq_of_agree I fun d hd => hagree d ?_)
    rintro rfl
    exact hc hd

/-- The columns are exactly those that the expression reads. -/
structure ReadsExactly (e : Expr) (cs : List ColumnRef) : Prop where
  /-- They are the columns that stand somewhere in it. -/
  occurs : ∀ table name, (table, name) ∈ cs ↔ (column table name).OccursIn e
  /-- They are the columns that its value depends on. -/
  depends : ∀ c, c ∈ cs ↔ e.DependsOn c
  /-- Their values determine its value, whatever a database makes of expressions. -/
  determines : ∀ {V : Type u} (I : Interpretation V) (ρ σ : ColumnRef → V),
    (∀ c ∈ cs, ρ c = σ c) → I.eval ρ e = I.eval σ e

theorem readsExactly_columns (e : Expr) : ReadsExactly.{u} e e.columns where
  occurs _ _ := mem_columns_iff_occursIn
  depends _ := mem_columns_iff_dependsOn
  determines I _ _ h := eval_eq_of_agree I h

end Expr

end Sql

/-! ## The columns of an anchor -/

/-- A restriction reads the columns of what it is stated of. -/
theorem Restriction.columns_predicate (row : Restriction) : row.predicate.columns = row.subject.columns := by
  rw [Sql.Expr.columns, Sql.Expr.columns, predicate, Condition.occurrences_on]

/-- Whether a restriction has the columns of the anchor is whether it depends on the same columns, if any. -/
theorem Comparison.constrainsAnchor_iff_dependsOn {x : Comparison} {row : Restriction} :
    x.constrainsAnchor row = true ↔ row.key = x.anchor.key ∨
      (∃ c, x.anchor.expr.DependsOn c) ∧ ∀ c, row.subject.DependsOn c ↔ x.anchor.expr.DependsOn c := by
  have hsome : x.anchor.expr.columns ≠ [] ↔ ∃ c, x.anchor.expr.DependsOn c := by
    simp only [ne_eq, List.eq_nil_iff_forall_not_mem, not_forall, not_not, Sql.Expr.mem_columns_iff_dependsOn]
  rw [constrainsAnchor_iff, hsome, Sql.Expr.columns_eq_iff]
  simp only [Sql.Expr.mem_columns_iff_dependsOn]

/-- The columns of an expression are exactly those that it reads: those that stand in it, on which its value
depends and which determine it. Whether a filter is on an anchor by its columns is whether it depends on the same
columns as the anchor, so that such a filter reads exactly the columns of the anchor. -/
theorem columns_exactly_read :
    (∀ e : Sql.Expr, Sql.Expr.ReadsExactly.{u} e e.columns) ∧
      ∀ (x : Comparison) (row : Restriction),
        (x.constrainsAnchor row = true ↔ row.key = x.anchor.key ∨
          (∃ c, x.anchor.expr.DependsOn c) ∧ ∀ c, row.subject.DependsOn c ↔ x.anchor.expr.DependsOn c) ∧
        (x.constrainsAnchor row = true → row.key ≠ x.anchor.key →
          Sql.Expr.ReadsExactly.{u} row.predicate x.anchor.expr.columns) := by
  refine ⟨Sql.Expr.readsExactly_columns, fun x row => ⟨Comparison.constrainsAnchor_iff_dependsOn, ?_⟩⟩
  intro hon hkey
  rcases Comparison.constrainsAnchor_iff.mp hon with heq | ⟨-, hcolumns⟩
  · exact absurd heq hkey
  · rw [← hcolumns, ← row.columns_predicate]
    exact row.predicate.readsExactly_columns

/-- Clicks compared with those of the week before, by the time of the click or else of its sight. -/
def Comparison.clicksWeekBefore : Comparison where
  reference := ⟨.weekOverWeek, .plain, "at"⟩
  anchor := ⟨"at", .date, .call .coalesce [.column (some "t0") "clicked_at", .column (some "t1") "seen_at"],
    false, false, true⟩

/-- In January, by the time of the sight or else of the click. -/
def Restriction.seenInJanuary : Restriction where
  key := "month"
  subject := .call (.cast "text") [.case
    [(.isNull (.column (some "t1") "seen_at") true, .column (some "t1") "seen_at")]
    (.column (some "t0") "clicked_at")]
  condition := .compare .like (.text "2024-01%")

/-- The month is on the anchor, as it has both of its columns; it would have the same value on two rows that
have both times in common. -/
theorem columns_exactly_read_clicksWeekBefore :
    Comparison.clicksWeekBefore.constrainsAnchor .seenInJanuary = true ∧
      Restriction.seenInJanuary.key ≠ Comparison.clicksWeekBefore.anchor.key ∧
      Sql.Expr.ReadsExactly.{0} Restriction.seenInJanuary.predicate
        [(some "t0", "clicked_at"), (some "t1", "seen_at")] := by
  have hon : Comparison.clicksWeekBefore.constrainsAnchor .seenInJanuary = true := by decide
  have hkey : Restriction.seenInJanuary.key ≠ Comparison.clicksWeekBefore.anchor.key := by decide
  have hcolumns : Comparison.clicksWeekBefore.anchor.expr.columns =
      [(some "t0", "clicked_at"), (some "t1", "seen_at")] := by decide
  have hreads := (columns_exactly_read.2 _ _).2 hon hkey
  rw [hcolumns] at hreads
  exact ⟨hon, hkey, hreads⟩

end CubeSql
