import CubeSql.Proofs.Reading
import CubeSql.Request.ExprForm

/-!
# Expressions survive being written

The written form of an expression is read as the expression. It lists the members of its objects in ascending
order, so that ordering it changes nothing, and its depth is enough for the reader to get to the innermost
expressions.
-/

namespace CubeSql

/-! ## Values -/

namespace Value

/-- An object is ordered if its keys are the given ones, which ascend, and its values are ordered. -/
theorem Ordered.ofMembers {members : List (String × Value)} (keys : List String)
    (heq : members.map Prod.fst = keys) (hkeys : keys.Pairwise (· < ·)) (h : OrderedMembers members) :
    (object members).Ordered := ⟨heq ▸ hkeys, h⟩

theorem depth_lt_of_mem_array {items : List Value} {v : Value} (h : v ∈ items) :
    v.depth < (array items).depth := by
  refine Nat.lt_succ_of_le ?_
  induction items with
  | nil => cases h
  | cons w items ih =>
    rcases List.mem_cons.mp h with rfl | h
    · exact Nat.le_max_left _ _
    · exact Nat.le_trans (ih h) (Nat.le_max_right _ _)

theorem depth_lt_of_mem_object {members : List (String × Value)} {m : String × Value} (h : m ∈ members) :
    m.2.depth < (object members).depth := by
  refine Nat.lt_succ_of_le ?_
  induction members with
  | nil => cases h
  | cons m' members ih =>
    rcases List.mem_cons.mp h with rfl | h
    · exact Nat.le_max_left _ _
    · exact Nat.le_trans (ih h) (Nat.le_max_right _ _)

/-- What is enough for an object is one more than what is enough for its members. -/
theorem exists_fuel {members : List (String × Value)} {fuel : Nat} (h : (object members).depth ≤ fuel) :
    ∃ n, fuel = n + 1 ∧ ∀ m ∈ members, m.2.depth ≤ n := by
  cases fuel with
  | zero => exact absurd h (Nat.not_succ_le_zero _)
  | succ n => exact ⟨n, rfl, fun m hm => Nat.le_of_lt_succ (Nat.lt_of_lt_of_le (depth_lt_of_mem_object hm) h)⟩

end Value

/-! ## Order -/

theorem Function.ordered_toValue (f : Function) : f.toValue.Ordered := by
  cases f with
  | dateTrunc grain => exact .ofMembers ["date_trunc"] rfl (by decide) ⟨trivial, trivial⟩
  | cast dataType =>
    have hcontent : (Value.object [("data_type", .text dataType)]).Ordered :=
      .ofMembers ["data_type"] rfl (by decide) ⟨trivial, trivial⟩
    exact .ofMembers ["cast"] rfl (by decide) ⟨hcontent, trivial⟩
  | _ => trivial

namespace Expr

mutual

/-- The written form of an expression is ordered. -/
theorem ordered_toValue : ∀ e : Expr, e.toValue.Ordered
  | .column none name =>
    .ofMembers ["column", "type"] rfl (by decide) ⟨trivial, trivial, trivial⟩
  | .column (some table) name =>
    .ofMembers ["column", "table", "type"] rfl (by decide) ⟨trivial, trivial, trivial, trivial⟩
  | .literal l =>
    .ofMembers ["type", "value"] rfl (by decide) ⟨trivial, l.ordered, trivial⟩
  | .call f args =>
    .ofMembers ["args", "func", "type"] rfl (by decide)
      ⟨ordered_toValues args, f.ordered_toValue, trivial, trivial⟩
  | .aggregate a arg =>
    .ofMembers ["agg", "expr", "type"] rfl (by decide) ⟨trivial, ordered_toValue arg, trivial, trivial⟩
  | .case branches otherwise =>
    .ofMembers ["branches", "else_expr", "type"] rfl (by decide)
      ⟨ordered_branchValues branches, ordered_toValue otherwise, trivial, trivial⟩
  | .binary op left right =>
    .ofMembers ["left", "op", "right", "type"] rfl (by decide)
      ⟨ordered_toValue left, trivial, ordered_toValue right, trivial, trivial⟩

/-- The same for several expressions. -/
theorem ordered_toValues : ∀ es : List Expr, Value.OrderedItems (toValues es)
  | [] => trivial
  | e :: es => ⟨ordered_toValue e, ordered_toValues es⟩

/-- The same for several branches. -/
theorem ordered_branchValues : ∀ bs : List (Expr × Expr), Value.OrderedItems (branchValues bs)
  | [] => trivial
  | (condition, result) :: bs =>
    ⟨.ofMembers ["then", "when"] rfl (by decide)
      ⟨ordered_toValue result, ordered_toValue condition, trivial⟩, ordered_branchValues bs⟩

end

/-! ## Reading -/

theorem settled?_function (f : Function) : settled? Function.read f.toValue = some f := by
  cases f with
  | dateTrunc grain => cases grain <;> rfl
  | _ => rfl

theorem settled?_choice {α : Type} {words : Words α} {name : String} {a : α}
    (h : words.ofName? name = some a) : settled? (Node.readChoice · words) (.text name) = some a := by
  rw [settled?, Node.readChoice_ofValue .settled h]
  rfl

/-- Reads a branch with at most `fuel` expressions around the innermost ones of its parts. -/
def branchWithin (fuel : Nat) (v : Value) : Option (Expr × Expr) := do
  let parts ← parts? ["when", "then"] v
  let condition ← ofValueWithin fuel (← parts.lookup "when")
  let result ← ofValueWithin fuel (← parts.lookup "then")
  return (condition, result)

section

variable (fuel : Nat) (v w : Value) (vs : List Value) (name : String)

theorem ofValueWithin_literal :
    ofValueWithin (fuel + 1) (.object [("type", .text "literal"), ("value", v)]) = some (.ofValue v) := rfl

theorem ofValueWithin_call :
    ofValueWithin (fuel + 1) (.object [("args", .array vs), ("func", v), ("type", .text "func")]) = do
      let f ← settled? Function.read v
      let args ← vs.mapM (ofValueWithin fuel)
      return .call f args := rfl

theorem ofValueWithin_aggregate :
    ofValueWithin (fuel + 1)
        (.object [("agg", .text name), ("expr", v), ("type", .text "aggregate")]) = do
      let a ← settled? (Node.readChoice · Aggregation.words) (.text name)
      let arg ← ofValueWithin fuel v
      return .aggregate a arg := rfl

theorem ofValueWithin_case :
    ofValueWithin (fuel + 1)
        (.object [("branches", .array vs), ("else_expr", v), ("type", .text "case")]) = do
      let branches ← vs.mapM (branchWithin fuel)
      let otherwise ← ofValueWithin fuel v
      return .case branches otherwise := rfl

theorem ofValueWithin_binary :
    ofValueWithin (fuel + 1)
        (.object [("left", v), ("op", .text name), ("right", w), ("type", .text "binary")]) = do
      let op ← settled? (Node.readChoice · BinaryOp.words) (.text name)
      let left ← ofValueWithin fuel v
      let right ← ofValueWithin fuel w
      return .binary op left right := rfl

theorem branchWithin_object :
    branchWithin fuel (.object [("then", w), ("when", v)]) = do
      let condition ← ofValueWithin fuel v
      let result ← ofValueWithin fuel w
      return (condition, result) := rfl

end

mutual

/-- The written form of an expression is read as the expression, if the fuel is enough for its depth. -/
theorem ofValueWithin_toValue :
    ∀ (e : Expr) {fuel : Nat}, e.toValue.depth ≤ fuel → ofValueWithin fuel e.toValue = some e
  | .column none name, fuel, h => by
    obtain ⟨n, rfl, -⟩ := Value.exists_fuel h
    rfl
  | .column (some table) name, fuel, h => by
    obtain ⟨n, rfl, -⟩ := Value.exists_fuel h
    rfl
  | .literal l, fuel, h => by
    obtain ⟨n, rfl, -⟩ := Value.exists_fuel h
    rw [toValue, ofValueWithin_literal, ofValue, l.ofValue_value]
  | .call f args, fuel, h => by
    obtain ⟨n, rfl, hparts⟩ := Value.exists_fuel h
    have hlist := hparts ("args", .array (toValues args)) (by simp)
    have hargs := mapM_toValues args fun v hv =>
      Nat.le_trans (Nat.le_of_lt (Value.depth_lt_of_mem_array hv)) hlist
    rw [toValue, ofValueWithin_call, settled?_function, hargs]
    rfl
  | .aggregate a arg, fuel, h => by
    obtain ⟨n, rfl, hparts⟩ := Value.exists_fuel h
    have harg := ofValueWithin_toValue arg (hparts ("expr", arg.toValue) (by simp))
    rw [toValue, ofValueWithin_aggregate, settled?_choice a.ofName?_name, harg]
    rfl
  | .case branches otherwise, fuel, h => by
    obtain ⟨n, rfl, hparts⟩ := Value.exists_fuel h
    have hlist := hparts ("branches", .array (branchValues branches)) (by simp)
    have hbranches := mapM_branchValues branches fun v hv =>
      Nat.le_trans (Nat.le_of_lt (Value.depth_lt_of_mem_array hv)) hlist
    have hotherwise := ofValueWithin_toValue otherwise (hparts ("else_expr", otherwise.toValue) (by simp))
    rw [toValue, ofValueWithin_case, hbranches, hotherwise]
    rfl
  | .binary op left right, fuel, h => by
    obtain ⟨n, rfl, hparts⟩ := Value.exists_fuel h
    have hleft := ofValueWithin_toValue left (hparts ("left", left.toValue) (by simp))
    have hright := ofValueWithin_toValue right (hparts ("right", right.toValue) (by simp))
    rw [toValue, ofValueWithin_binary, settled?_choice op.ofName?_name, hleft, hright]
    rfl

/-- The same for several expressions. -/
theorem mapM_toValues : ∀ (es : List Expr) {fuel : Nat}, (∀ v ∈ toValues es, v.depth ≤ fuel) →
    (toValues es).mapM (ofValueWithin fuel) = some es
  | [], fuel, _ => rfl
  | e :: es, fuel, h => by
    rw [toValues, List.forall_mem_cons] at h
    rw [toValues, List.mapM_cons, ofValueWithin_toValue e h.1, mapM_toValues es h.2]
    rfl

/-- The same for several branches. -/
theorem mapM_branchValues : ∀ (bs : List (Expr × Expr)) {fuel : Nat},
    (∀ v ∈ branchValues bs, v.depth ≤ fuel) → (branchValues bs).mapM (branchWithin fuel) = some bs
  | [], fuel, _ => rfl
  | (condition, result) :: bs, fuel, h => by
    rw [branchValues, List.forall_mem_cons] at h
    have hpart : ∀ m ∈ [("then", result.toValue), ("when", condition.toValue)], m.2.depth ≤ fuel :=
      fun m hm => Nat.le_trans (Nat.le_of_lt (Value.depth_lt_of_mem_object hm)) h.1
    have hresult := ofValueWithin_toValue result (hpart ("then", result.toValue) (by simp))
    have hcondition := ofValueWithin_toValue condition (hpart ("when", condition.toValue) (by simp))
    rw [branchValues, List.mapM_cons, branchWithin_object, hcondition, hresult, mapM_branchValues bs h.2]
    rfl

end

/-- The tree of an expression's written form is read as the expression. -/
theorem read_toValue (e : Expr) : read (.ofValue e.toValue) = .ok e := by
  have hform : ofForm? e.toValue.ordered = some e := by
    rw [ofForm?, Value.ordered_eq_self e.ordered_toValue]
    exact ofValueWithin_toValue e (Nat.le_refl _)
  rw [read, Node.readValue_ofValue]
  show Reading.ofOption (ofForm? e.toValue.ordered) = .ok e
  rw [hform]
  rfl

end Expr

end CubeSql
