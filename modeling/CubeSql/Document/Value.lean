import CubeSql.Number.Binary64

/-!
# Free-form values

The values that a request carries without looking into them: literals, filter values, result rows. Integers
and floating-point numbers are kept apart, as `1` and `1.0` are different values.

An object is *ordered* when its keys strictly ascend, and so do those of every value in it. `Value.ordered`
brings any value into this form, the last of several members of one key winning, and leaves an ordered
value as it is (`Value.ordered_eq_self`). A `Literal` is a value in this form, so that two literals with
the same members are the same literal.
-/

namespace CubeSql

/-- A number: an integer, or a floating-point number. -/
inductive Number where
  /-- An integer. -/
  | int (value : Int)
  /-- A floating-point number. -/
  | float (value : Binary64)
deriving DecidableEq, Repr, Inhabited

/-- A value without parts. -/
inductive Scalar where
  /-- The absent value. -/
  | null
  /-- A truth value. -/
  | bool (value : Bool)
  /-- A number. -/
  | number (value : Number)
  /-- A text. -/
  | text (value : String)
deriving DecidableEq, Repr, Inhabited

/-- A free-form value. -/
inductive Value where
  /-- A value without parts. -/
  | scalar (value : Scalar)
  /-- A list of values. -/
  | array (items : List Value)
  /-- Members, each a key and its value. -/
  | object (members : List (String × Value))
deriving Inhabited

namespace Value

/-- The absent value. -/
abbrev null : Value := .scalar .null

/-- A truth value. -/
abbrev bool (b : Bool) : Value := .scalar (.bool b)

/-- An integer. -/
abbrev int (n : Int) : Value := .scalar (.number (.int n))

/-- A text. -/
abbrev text (s : String) : Value := .scalar (.text s)

/-- A list of texts. -/
def texts (items : List String) : Value := .array (items.map text)

/-- A text, or the absent value. -/
def optionalText : Option String → Value
  | some s => text s
  | none => null

/-- The value under a key. -/
def member? (key : String) : Value → Option Value
  | .object members => members.lookup key
  | _ => none

/-! ## Equality of values -/

end Value

/-- Numbers are the same when they are of one kind and have one value; zero has one value. -/
def Number.same : Number → Number → Bool
  | .int a, .int b => a == b
  | .float a, .float b => a.sameValue b
  | _, _ => false

/-- Scalars are the same when they are of one kind and have one value. -/
def Scalar.same : Scalar → Scalar → Bool
  | .number a, .number b => a.same b
  | a, b => a == b

namespace Value

mutual

/-- Values are the same when they have the same parts. -/
def same : Value → Value → Bool
  | .scalar a, .scalar b => a.same b
  | .array a, .array b => sameItems a b
  | .object a, .object b => sameMembers a b
  | _, _ => false

/-- Lists are the same when their items are, one by one. -/
def sameItems : List Value → List Value → Bool
  | [], [] => true
  | a :: as, b :: bs => same a b && sameItems as bs
  | _, _ => false

/-- Objects are the same when their members are, one by one. -/
def sameMembers : List (String × Value) → List (String × Value) → Bool
  | [], [] => true
  | (k, a) :: as, (l, b) :: bs => k == l && same a b && sameMembers as bs
  | _, _ => false

end

/-! ## Ordered objects -/

mutual

/-- Every object in the value lists its keys in strictly ascending order. -/
def Ordered : Value → Prop
  | .scalar _ => True
  | .array items => OrderedItems items
  | .object members => (members.map Prod.fst).Pairwise (· < ·) ∧ OrderedMembers members

/-- Every item is ordered. -/
def OrderedItems : List Value → Prop
  | [] => True
  | v :: vs => Ordered v ∧ OrderedItems vs

/-- Every member's value is ordered. -/
def OrderedMembers : List (String × Value) → Prop
  | [] => True
  | (_, v) :: ms => Ordered v ∧ OrderedMembers ms

end

/-- Puts a member into a list of members with ascending keys; a member of the same key gives way. -/
def insertMember (key : String) (value : Value) : List (String × Value) → List (String × Value)
  | [] => [(key, value)]
  | (k, v) :: rest =>
    if key < k then (key, value) :: (k, v) :: rest
    else if key = k then (key, value) :: rest
    else (k, v) :: insertMember key value rest

mutual

/-- The value with the members of every object in ascending order of keys, the last of several members
of one key being kept. -/
def ordered : Value → Value
  | .scalar s => .scalar s
  | .array items => .array (orderedItems items)
  | .object members => .object (orderedMembers [] members)

/-- The items, each ordered. -/
def orderedItems : List Value → List Value
  | [] => []
  | v :: vs => ordered v :: orderedItems vs

/-- The members put one by one into `done`. -/
def orderedMembers (done : List (String × Value)) : List (String × Value) → List (String × Value)
  | [] => done
  | (k, v) :: ms => orderedMembers (insertMember k (ordered v) done) ms

end

theorem mem_keys_insertMember {key : String} {value : Value} {ms : List (String × Value)} {k : String}
    (h : k ∈ (insertMember key value ms).map Prod.fst) : k = key ∨ k ∈ ms.map Prod.fst := by
  induction ms with
  | nil => simpa [insertMember] using h
  | cons m ms ih =>
    obtain ⟨l, v⟩ := m
    simp only [insertMember] at h
    split at h
    · simpa using h
    · split at h
      · simp only [List.map_cons, List.mem_cons] at h ⊢
        exact h.imp_right .inr
      · simp only [List.map_cons, List.mem_cons] at h ⊢
        rcases h with h | h
        · exact .inr (.inl h)
        · exact (ih h).imp_right .inr

theorem pairwise_insertMember (key : String) (value : Value) {ms : List (String × Value)}
    (h : (ms.map Prod.fst).Pairwise (· < ·)) :
    ((insertMember key value ms).map Prod.fst).Pairwise (· < ·) := by
  induction ms with
  | nil => simp [insertMember]
  | cons m ms ih =>
    obtain ⟨l, v⟩ := m
    simp only [List.map_cons, List.pairwise_cons] at h
    simp only [insertMember]
    split
    · rename_i hlt
      simp only [List.map_cons, List.pairwise_cons, List.mem_cons]
      refine ⟨?_, h⟩
      rintro k (rfl | hk)
      · exact hlt
      · exact String.lt_trans hlt (h.1 k hk)
    · split
      · rename_i _ heq
        subst heq
        simpa using h
      · rename_i hlt hne
        simp only [List.map_cons, List.pairwise_cons]
        refine ⟨fun k hk => ?_, ih h.2⟩
        rcases mem_keys_insertMember hk with rfl | hk
        · exact Std.lt_of_le_of_ne (Std.not_lt.mp hlt) (Ne.symm hne)
        · exact h.1 k hk

theorem orderedMembers_insertMember {key : String} {value : Value} (hv : value.Ordered)
    {ms : List (String × Value)} (h : OrderedMembers ms) :
    OrderedMembers (insertMember key value ms) := by
  induction ms with
  | nil => simpa [insertMember, OrderedMembers] using hv
  | cons m ms ih =>
    obtain ⟨l, v⟩ := m
    simp only [OrderedMembers] at h
    simp only [insertMember]
    split
    · exact ⟨hv, h⟩
    · split
      · exact ⟨hv, h.2⟩
      · exact ⟨h.1, ih h.2⟩

mutual

/-- Ordering a value makes it ordered. -/
theorem ordered_ordered : ∀ v : Value, v.ordered.Ordered
  | .scalar _ => by simp [ordered, Ordered]
  | .array items => by simpa [ordered, Ordered] using orderedItems_ordered items
  | .object members => by
    simpa [ordered, Ordered] using
      @orderedMembers_ordered members [] (by simp) (by simp [OrderedMembers])

/-- Ordering the items of a list makes them ordered. -/
theorem orderedItems_ordered : ∀ vs : List Value, OrderedItems (orderedItems vs)
  | [] => by simp [orderedItems, OrderedItems]
  | v :: vs => by simpa [orderedItems, OrderedItems] using ⟨ordered_ordered v, orderedItems_ordered vs⟩

/-- Putting members into ordered ones keeps them ordered. -/
theorem orderedMembers_ordered : ∀ (ms : List (String × Value)) {done : List (String × Value)},
    (done.map Prod.fst).Pairwise (· < ·) → OrderedMembers done →
    ((orderedMembers done ms).map Prod.fst).Pairwise (· < ·) ∧ OrderedMembers (orderedMembers done ms)
  | [], _, hk, hv => by simpa only [orderedMembers] using ⟨hk, hv⟩
  | (k, v) :: ms, done, hk, hv => by
    simpa only [orderedMembers] using
      orderedMembers_ordered ms (pairwise_insertMember k v.ordered hk)
        (orderedMembers_insertMember (ordered_ordered v) hv)

end

/-- A member with a greater key than all others goes to the end. -/
theorem insertMember_of_lt {key : String} {value : Value} {ms : List (String × Value)}
    (h : ∀ k ∈ ms.map Prod.fst, k < key) : insertMember key value ms = ms ++ [(key, value)] := by
  induction ms with
  | nil => rfl
  | cons m ms ih =>
    obtain ⟨l, v⟩ := m
    simp only [List.map_cons, List.mem_cons, forall_eq_or_imp] at h
    have hne : key ≠ l := fun heq => String.lt_irrefl l (heq ▸ h.1)
    have hlt : ¬ key < l := fun hkl => String.lt_irrefl l (String.lt_trans h.1 hkl)
    simp [insertMember, hlt, hne, ih h.2]

mutual

/-- An ordered value is left as it is. -/
theorem ordered_eq_self : ∀ {v : Value}, v.Ordered → v.ordered = v
  | .scalar _, _ => by simp [ordered]
  | .array items, h => by
    simp only [Ordered] at h
    simp [ordered, orderedItems_eq_self h]
  | .object members, h => by
    simp only [Ordered] at h
    simp [ordered, @orderedMembers_eq_append members [] (by simpa using h.1) h.2]

/-- Ordered items are left as they are. -/
theorem orderedItems_eq_self : ∀ {vs : List Value}, OrderedItems vs → orderedItems vs = vs
  | [], _ => by simp [orderedItems]
  | v :: vs, h => by
    simp only [OrderedItems] at h
    simp [orderedItems, ordered_eq_self h.1, orderedItems_eq_self h.2]

/-- Ordered members with ascending keys are put at the end one by one. -/
theorem orderedMembers_eq_append : ∀ {ms done : List (String × Value)},
    ((done ++ ms).map Prod.fst).Pairwise (· < ·) → OrderedMembers ms →
    orderedMembers done ms = done ++ ms
  | [], done, _, _ => by simp [orderedMembers]
  | (k, v) :: ms, done, hk, hv => by
    simp only [OrderedMembers] at hv
    have hlt : ∀ l ∈ done.map Prod.fst, l < k := by
      rw [List.map_append, List.pairwise_append] at hk
      exact fun l hl => hk.2.2 l hl k (by simp)
    rw [orderedMembers, ordered_eq_self hv.1, insertMember_of_lt hlt,
      orderedMembers_eq_append (by simpa using hk) hv.2]
    simp

end

end Value

/-! ## Literals -/

/-- A value whose objects are ordered. -/
structure Literal where
  /-- The value itself. -/
  value : Value
  /-- Every object in it lists its keys in strictly ascending order. -/
  ordered : value.Ordered

namespace Literal

/-- The literal of a value: its ordered form. -/
def ofValue (v : Value) : Literal := ⟨v.ordered, v.ordered_ordered⟩

/-- The absent value. -/
def null : Literal := ⟨.null, by simp [Value.Ordered]⟩

instance : Inhabited Literal := ⟨null⟩

theorem ext {a b : Literal} (h : a.value = b.value) : a = b := by
  cases a; cases b; simp_all

/-- The literal of a literal's value is the literal. -/
theorem ofValue_value (l : Literal) : ofValue l.value = l :=
  ext (Value.ordered_eq_self l.ordered)

/-- Literals are the same when their values are. -/
def same (a b : Literal) : Bool := a.value.same b.value

end Literal

end CubeSql
