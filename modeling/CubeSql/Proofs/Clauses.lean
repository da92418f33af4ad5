import CubeSql.Sql.Query
import Mathlib.Data.List.Nodup

/-!
# The clauses of a query

What the clauses of a query mention: the names of its columns, the tables and queries that it reads, and
the expressions of each clause.
-/

namespace CubeSql

/-- Where every item has a key, the keys of the items are all there is. -/
theorem filterMap_eq_of_map_eq {α κ : Type} {key? : α → Option κ} {items : List α} {keys : List κ}
    (h : items.map key? = keys.map some) : items.filterMap key? = keys := by
  have hkeys : (items.map key?).filterMap id = keys := by
    rw [h, List.filterMap_map]
    exact List.filterMap_some
  rwa [List.filterMap_map] at hkeys

/-- Of items whose keys differ, one alone has its key. -/
theorem filter_key_eq {α κ : Type} [DecidableEq κ] {key? : α → Option κ} {items : List α}
    (hn : (items.filterMap key?).Nodup) {i : α} (hi : i ∈ items) {k : κ} (hk : key? i = some k) :
    (items.filter fun j => key? j == some k) = [i] := by
  induction items with
  | nil => cases hi
  | cons j items ih =>
    have hrest : (items.filterMap key?).Nodup :=
      hn.sublist ((List.sublist_cons_self j items).filterMap _)
    rcases List.mem_cons.mp hi with rfl | hi
    · have hnone : ∀ j ∈ items, ¬ (key? j == some k) = true := by
        intro j hj heq
        rw [List.filterMap_cons_some hk, List.nodup_cons] at hn
        exact hn.1 (List.mem_filterMap.mpr ⟨j, hj, eq_of_beq heq⟩)
      rw [List.filter_cons_of_pos (by simp [hk]), List.filter_eq_nil_iff.mpr hnone]
    · have hj : ¬ (key? j == some k) = true := by
        intro heq
        rw [List.filterMap_cons_some (eq_of_beq heq), List.nodup_cons] at hn
        exact hn.1 (List.mem_filterMap.mpr ⟨i, hi, hk⟩)
      rw [List.filter_cons, if_neg hj]
      exact ih hrest hi

namespace Sql

/-- The expressions of an entry of GROUP BY, those of all subtotals in one row. -/
def GroupItem.exprs : GroupItem → List Expr
  | expr e => [e]
  | rollup args => args.flatten

namespace Select

variable {σ : Type} (q : Select σ)

/-- The aliases of the columns. -/
def aliases : List String := q.items.filterMap SelectItem.aliasName

/-- What is selected from and joined. -/
def sources : List σ := q.source :: q.joins.map JoinOf.source

/-- The expressions of GROUP BY. -/
def groupExprs : List Expr := q.groups.flatMap GroupItem.exprs

/-- The expressions of ORDER BY. -/
def orderExprs : List Expr := q.order.map OrderItem.expr

/-- The expressions over the columns of the sources: those of SELECT, ON, WHERE and HAVING. -/
def sourceExprs : List Expr :=
  q.items.map SelectItem.expr ++ q.joins.flatMap JoinOf.on ++ q.restrictions ++ q.having

/-- The expressions that are selected under an alias. -/
def projected (a : String) : List Expr :=
  (q.items.filter fun i => i.aliasName == some a).map SelectItem.expr

/-- Under an alias of its own an item alone is selected. -/
theorem projected_eq {q : Select σ} (hn : q.aliases.Nodup) {i : SelectItem} (hi : i ∈ q.items)
    {a : String} (ha : i.aliasName = some a) : q.projected a = [i.expr] := by
  rw [projected, filter_key_eq hn hi ha]
  rfl

end Select

end Sql

end CubeSql
