import CubeSql.Error

/-!
# References

A reference compares every metric with its value one period earlier, counted along a date dimension. Its
name is that of the period, followed by `_d` for the difference and `_p` for the relative difference.
-/

namespace CubeSql

namespace ReferenceModifier

/-- What the modifier adds to the name of a period. -/
def ending : ReferenceModifier → String
  | plain => "" | delta => "_d" | deltaPercent => "_p"

end ReferenceModifier

/-- A comparison with an earlier period. -/
structure Reference where
  /-- The period. -/
  kind : ReferenceKind
  /-- What is shown of the compared value. -/
  modifier : ReferenceModifier
  /-- The key of the date dimension along which the period is counted. -/
  dimension : String
deriving DecidableEq, Repr, Inhabited

namespace Reference

/-- The name of the reference. -/
def name (r : Reference) : String := r.kind.name ++ r.modifier.ending

/-- The name together with the dimension. -/
def label (r : Reference) : String := r.name ++ "(" ++ r.dimension ++ ")"

/-- The period of a name without ending. -/
def kindOfName (name : String) : Except Error ReferenceKind :=
  match ReferenceKind.ofName? name with
  | some kind => .ok kind
  | none => .error (.unknownReference name)

/-- The period and the modifier of a name. The ending is what follows the first underscore. -/
def parseName (name : String) : Except Error (ReferenceKind × ReferenceModifier) := do
  let base := name.toList.takeWhile (· ≠ '_')
  let modifier ←
    match name.toList.drop base.length with
    | [] => pure .plain
    | ['_', 'd'] => pure .delta
    | ['_', 'p'] => pure .deltaPercent
    | _ => throw (.unknownReferenceModifier name)
  return (← kindOfName (String.ofList base), modifier)

/-- The reference of a name along a dimension. -/
def parse (name dimension : String) : Except Error Reference := do
  let (kind, modifier) ← parseName name
  return ⟨kind, modifier, dimension⟩

/-- The name of a reference is read as its period and modifier. -/
theorem parse_name (r : Reference) : parse r.name r.dimension = .ok r := by
  obtain ⟨kind, modifier, dimension⟩ := r
  have h : parseName (kind.name ++ modifier.ending) = .ok (kind, modifier) := by
    cases kind <;> cases modifier <;> rfl
  simp only [parse, name, h]
  rfl

end Reference

end CubeSql
