import CubeSql.Document.Reading
import CubeSql.Proofs.Success

/-!
# Reading written values

What the readers find in the tree of a value: a text, a choice by its name, a list item by item, and a record
member by member. It does not depend on the kind of document.
-/

namespace CubeSql.Node

variable {α σ : Type}

/-! ## Scalars and lists -/

@[simp] theorem fill_ok (a : α) : fill none (.ok a) = .ok (some a) := rfl

@[simp] theorem readText_ofValue (s : String) : (ofValue (.text s)).readText = .ok s := rfl

@[simp] theorem readBool_ofValue (b : Bool) : (ofValue (.bool b)).readBool = .ok b := rfl

@[simp] theorem readOptional_optionalText (s : Option String) :
    (ofValue (.optionalText s)).readOptional readText = .ok s := by
  cases s <;> rfl

@[simp] theorem readValue_ofValue (v : Value) : (ofValue v).readValue = .ok v := by
  rw [readValue, value?_ofValue]
  rfl

theorem ofValues_eq_map (vs : List Value) : ofValues vs = vs.map ofValue := by
  induction vs with
  | nil => rfl
  | cons v vs ih => rw [ofValues, ih, List.map_cons]

/-- A reader that finds every item in the item's value finds them all in the list of the values. -/
theorem mapM_ofValues {read : Node → Reading α} {toValue : α → Value} {items : List α}
    (h : ∀ a ∈ items, read (ofValue (toValue a)) = .ok a) :
    (ofValues (items.map toValue)).mapM read = .ok items := by
  rw [ofValues_eq_map, List.map_map, mapM_eq_ok, List.forall₂_map_left_iff, List.forall₂_same]
  exact h

theorem readList_ofValue (c : Conventions) {read : Node → Reading α} {toValue : α → Value} {items : List α}
    (h : ∀ a ∈ items, read (ofValue (toValue a)) = .ok a) :
    (ofValue (.array (items.map toValue))).readList c read = .ok items :=
  mapM_ofValues h

/-! ## Choices and records -/

/-- A word that stands for a choice is read as the choice. -/
theorem readChoice_ofValue (c : Conventions) {words : Words α} {name : String} {a : α}
    (h : words.ofName? name = some a) : (ofValue (.text name)).readChoice c words = .ok a := by
  show (Reading.ofOption (words.ofName? name) >>= fun choice => pure choice) = .ok a
  rw [h]
  rfl

/-- An object with declared members only is read as a record, each member in its place. -/
theorem readRecord_ofValue (c : Conventions) {shape : Shape} {step : σ → String → Node → Reading σ}
    {members : List (String × Value)} (h : ∀ m ∈ members, m.1 ∈ shape.names) (draft : σ) :
    (ofValue (.object members)).readRecord c shape step draft =
      members.foldlM (fun draft m => step draft m.1 (ofValue m.2)) draft := by
  show readMembers shape step draft (ofMembers members) = _
  induction members generalizing draft with
  | nil => rfl
  | cons m members ih =>
    obtain ⟨hm, hmembers⟩ := List.forall_mem_cons.mp h
    obtain ⟨key, v⟩ := m
    have hkey : (text key).keyName shape.names = .ok key := rfl
    rw [ofMembers, readMembers, hkey, List.foldlM_cons]
    show (if key ∈ shape.names then _ else _) = _
    rw [if_pos hm]
    congr 1
    funext draft
    exact ih hmembers draft

end CubeSql.Node
