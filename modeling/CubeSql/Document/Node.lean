import CubeSql.Document.Value

/-!
# Documents

What a reader of JSON, YAML or TOML text hands on: a tree that still has its members in their written
order, repeated ones included. A text that breaks off, because it is not well formed from some place on,
yields the tree read so far with `Node.torn` at that place, so that whoever reads the tree in its written
order meets the same first fault as whoever reads the text.

Three readings of a tree are defined here: skipping it (`Node.isWhole`), taking it as a free-form value
(`Node.value?`), and settling it (`Node.settled?`), which decides once and for all what each scalar is.
-/

namespace CubeSql

/-- A tree read from a text. -/
inductive Node where
  /-- A scalar. `value` is what it denotes; a scalar without one, such as a number out of range, can only
  be skipped. `spelling` is what it reads as where a text is expected, if it may be read as one. -/
  | scalar (value : Option Scalar) (spelling : Option String)
  /-- A number without a finite value, which as a free-form value is the absent one. -/
  | nonFinite (spelling : Option String)
  /-- A list. -/
  | list (items : List Node)
  /-- Members in their written order, each a key and a value. -/
  | record (members : List (Node × Node))
  /-- The text is not well formed from here on. -/
  | torn
deriving Inhabited

namespace Node

/-- A text that is written as one. -/
def text (s : String) : Node := .scalar (some (.text s)) (some s)

/-- A scalar that denotes nothing. -/
def void : Node := .scalar none none

/-- The text that a scalar reads as. -/
def spelling? : Node → Option String
  | .scalar _ spelling => spelling
  | .nonFinite spelling => spelling
  | _ => none

/-- Whether the tree is a list. -/
def isList : Node → Bool
  | .list _ => true
  | _ => false

/-- Whether the tree is the absent value. -/
def isNull : Node → Bool
  | .scalar (some .null) _ => true
  | _ => false

/-- Whether the tree is a number that is written with a minus sign, be it zero. -/
def isNegated : Node → Bool
  | .scalar (some (.number _)) (some spelling) => spelling.toList.head? == some '-'
  | _ => false

/-! ## Skipping -/

mutual

/-- Whether the text behind the tree is well formed: enough to skip it. -/
def isWhole : Node → Bool
  | .scalar _ _ => true
  | .nonFinite _ => true
  | .list items => areWhole items
  | .record members => membersWhole members
  | .torn => false

/-- Whether every item is well formed. -/
def areWhole : List Node → Bool
  | [] => true
  | n :: ns => isWhole n && areWhole ns

/-- Whether every key and value is well formed. -/
def membersWhole : List (Node × Node) → Bool
  | [] => true
  | (k, n) :: ms => isWhole k && isWhole n && membersWhole ms

end

/-! ## Free-form values -/

mutual

/-- The free-form value of a tree, members in their written order. -/
def value? : Node → Option Value
  | .scalar value _ => value.map .scalar
  | .nonFinite _ => some .null
  | .list items => (values? items).map .array
  | .record members => (memberValues? members).map .object
  | .torn => none

/-- The free-form values of the items. -/
def values? : List Node → Option (List Value)
  | [] => some []
  | n :: ns => do
    let v ← value? n
    let vs ← values? ns
    return v :: vs

/-- The keys and free-form values of the members; a key is read as a text. -/
def memberValues? : List (Node × Node) → Option (List (String × Value))
  | [] => some []
  | (k, n) :: ms => do
    let key ← spelling? k
    let v ← value? n
    let vs ← memberValues? ms
    return (key, v) :: vs

end

mutual

/-- The tree of a free-form value. -/
def ofValue : Value → Node
  | .scalar (.text s) => text s
  | .scalar s => .scalar (some s) none
  | .array items => .list (ofValues items)
  | .object members => .record (ofMembers members)

/-- The trees of the items. -/
def ofValues : List Value → List Node
  | [] => []
  | v :: vs => ofValue v :: ofValues vs

/-- The trees of the members. -/
def ofMembers : List (String × Value) → List (Node × Node)
  | [] => []
  | (k, v) :: ms => (text k, ofValue v) :: ofMembers ms

end

mutual

/-- The free-form value of the tree of a value is the value. -/
theorem value?_ofValue : ∀ v : Value, (ofValue v).value? = some v
  | .scalar s => by cases s <;> simp [ofValue, value?, text]
  | .array items => by simp [ofValue, value?, values?_ofValues items]
  | .object members => by simp [ofValue, value?, memberValues?_ofMembers members]

/-- The same for the items of a list. -/
theorem values?_ofValues : ∀ vs : List Value, values? (ofValues vs) = some vs
  | [] => by simp [ofValues, values?]
  | v :: vs => by simp [ofValues, values?, value?_ofValue v, values?_ofValues vs]

/-- The same for the members of an object. -/
theorem memberValues?_ofMembers : ∀ ms : List (String × Value), memberValues? (ofMembers ms) = some ms
  | [] => by simp [ofMembers, memberValues?]
  | (k, v) :: ms => by
    simp [ofMembers, memberValues?, spelling?, text, value?_ofValue v, memberValues?_ofMembers ms]

end

/-! ## Settling -/

mutual

/-- The tree with every scalar taken for what it denotes: only a text still reads as one. Nothing where
some part denotes nothing. -/
def settled? : Node → Option Node
  | .scalar (some (.text s)) _ => some (text s)
  | .scalar (some s) _ => some (.scalar (some s) none)
  | .scalar none _ => none
  | .nonFinite _ => some (.nonFinite none)
  | .list items => (settledItems? items).map .list
  | .record members => (settledMembers? members).map .record
  | .torn => none

/-- The items, each settled. -/
def settledItems? : List Node → Option (List Node)
  | [] => some []
  | n :: ns => do
    let s ← settled? n
    let ss ← settledItems? ns
    return s :: ss

/-- The keys and values of the members, each settled. A number with a minus sign is no key. -/
def settledMembers? : List (Node × Node) → Option (List (Node × Node))
  | [] => some []
  | (k, n) :: ms => do
    let key ← settled? k
    let s ← settled? n
    let ss ← settledMembers? ms
    return (if k.isNegated then void else key, s) :: ss

end

mutual

/-- The tree of a value is settled already. -/
theorem settled?_ofValue : ∀ v : Value, (ofValue v).settled? = some (ofValue v)
  | .scalar s => by cases s <;> simp [ofValue, settled?, text]
  | .array items => by simp [ofValue, settled?, settledItems?_ofValues items]
  | .object members => by simp [ofValue, settled?, settledMembers?_ofMembers members]

/-- The same for the items of a list. -/
theorem settledItems?_ofValues : ∀ vs : List Value, settledItems? (ofValues vs) = some (ofValues vs)
  | [] => by simp [ofValues, settledItems?]
  | v :: vs => by simp [ofValues, settledItems?, settled?_ofValue v, settledItems?_ofValues vs]

/-- The same for the members of an object. -/
theorem settledMembers?_ofMembers :
    ∀ ms : List (String × Value), settledMembers? (ofMembers ms) = some (ofMembers ms)
  | [] => by simp [ofMembers, settledMembers?]
  | (k, v) :: ms => by
    simp [ofMembers, settledMembers?, settled?, text, isNegated, settled?_ofValue v,
      settledMembers?_ofMembers ms]

end

end Node

/-- A text as it was read. -/
structure Document where
  /-- The tree. -/
  root : Node
  /-- Whether nothing but white space follows the tree. -/
  endsCleanly : Bool
deriving Inhabited

end CubeSql
