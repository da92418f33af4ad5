import CubeSql.Document.Node
import CubeSql.Error
import CubeSql.Number.Word

/-!
# Reading records and choices out of documents

The parts of every reader: scalars, lists, choices from a closed set of words, and records. A record is
read member by member in its written order, each into a draft; in most kinds of documents a list may stand
for a record, with its members in their declared order. The first fault in the written order is the one
reported.

What differs between kinds of documents is gathered in `Conventions`.
-/

namespace CubeSql

/-- How a kind of document writes choices, records and lists. -/
structure Conventions where
  /-- A choice may be written as a record with one member: the choice, and its content. -/
  choiceRecords : Bool
  /-- An empty record may stand for no content of a choice. -/
  emptyContent : Bool
  /-- A list may stand for a record, its items for the members in their declared order. -/
  recordLists : Bool
  /-- A list may stand for the content of a choice that is a record. -/
  contentLists : Bool
  /-- An empty scalar may stand for an empty list or record. -/
  blankCollections : Bool
  /-- Items after the last declared member are passed over. -/
  surplusItems : Bool
deriving DecidableEq, Repr, Inhabited

namespace Conventions

/-- JSON text. -/
def json : Conventions := ⟨true, false, true, true, false, false⟩

/-- Free-form values. -/
def value : Conventions := ⟨true, false, true, false, false, false⟩

/-- Settled documents, whatever they were read from. -/
def settled : Conventions := ⟨true, true, true, true, false, false⟩

/-- YAML text. -/
def yaml : Conventions := ⟨false, false, false, false, true, false⟩

/-- TOML text. -/
def toml : Conventions := ⟨true, true, true, true, false, true⟩

end Conventions

/-- The outcome of reading. -/
abbrev Reading (α : Type) := Except Fault α

/-- A document that is not of the expected form. -/
def Reading.malformed {α : Type} : Reading α := .error .malformed

/-- What was found, if anything was. -/
def Reading.ofOption {α : Type} : Option α → Reading α
  | some a => .ok a
  | none => .error .malformed

namespace Node

/-! ## Scalars and lists -/

/-- Reads a text. -/
def readText (n : Node) : Reading String := .ofOption n.spelling?

/-- Reads a truth value. -/
def readBool : Node → Reading Bool
  | .scalar (some (.bool b)) _ => .ok b
  | _ => .malformed

/-- Reads a natural number of 64 bits, which is not written with a minus sign. -/
def readCount (n : Node) : Reading UInt64 :=
  match n with
  | .scalar (some (.number (.int count))) _ =>
    if !n.isNegated && fitsUnsigned 64 count then .ok (UInt64.ofNat count.toNat) else .malformed
  | _ => .malformed

/-- Reads something that may be absent. -/
def readOptional {α : Type} (read : Node → Reading α) (n : Node) : Reading (Option α) :=
  if n.isNull then .ok none else (read n).map some

/-- Reads a free-form value, as it is written. -/
def readValue (n : Node) : Reading Value := .ofOption n.value?

/-- Whether an empty scalar stands for an empty list or record. -/
def isBlankCollection (c : Conventions) : Node → Bool
  | .scalar (some .null) (some "") => c.blankCollections
  | _ => false

/-- Reads a list, item by item. -/
def readList {α : Type} (c : Conventions) (read : Node → Reading α) (n : Node) : Reading (List α) :=
  match n with
  | .list items => items.mapM read
  | n => if n.isBlankCollection c then .ok [] else .malformed

/-- The name of a key, where the given names are declared. A settled key may also be the position of one of
them. -/
def keyName (names : List String) (key : Node) : Reading String :=
  match key.spelling?, key with
  | some name, _ => .ok name
  | none, .scalar (some (.number (.int position))) _ =>
    if 0 ≤ position then .ok ((names[position.toNat]?).getD "") else .malformed
  | none, _ => .malformed

/-! ## Choices -/

/-- Reads a choice among the given names: its name, and its content where it has one. -/
def readVariant (c : Conventions) (names : List String) : Node → Reading (String × Option Node)
  | .record [(key, content)] =>
    if c.choiceRecords then do return (← key.keyName names, some content) else .malformed
  | .record _ => .malformed
  | n => do return (← n.readText, none)

/-- Whether the content of a choice is no content. -/
def isNoContent (c : Conventions) : Option Node → Bool
  | none => true
  | some (.record []) => c.emptyContent
  | some (.list []) => c.emptyContent && c.surplusItems
  | some n => n.isNull

/-- Reads a choice without content. -/
def readChoice {α : Type} (c : Conventions) (words : Words α) (n : Node) : Reading α := do
  let (name, content) ← n.readVariant c words.names
  let choice ← Reading.ofOption (words.ofName? name)
  if isNoContent c content then return choice else .malformed

/-! ## Records -/

/-- Fills a place of a draft that must not be filled twice. -/
def fill {α : Type} (place : Option α) (read : Reading α) : Reading (Option α) :=
  match place with
  | some _ => .malformed
  | none => read.map some

/-- The declared members of a record, and whether it may have no others. -/
structure Shape where
  /-- The names of the members, in their declared order. -/
  names : List String
  /-- Whether other members are refused rather than skipped. -/
  strict : Bool
deriving DecidableEq, Repr, Inhabited

/-- Reads members in their written order into a draft. -/
def readMembers {σ : Type} (shape : Shape) (step : σ → String → Node → Reading σ) :
    σ → List (Node × Node) → Reading σ
  | draft, [] => .ok draft
  | draft, (key, node) :: members => do
    let name ← key.keyName shape.names
    if name ∈ shape.names then
      readMembers shape step (← step draft name node) members
    else if !shape.strict && node.isWhole then readMembers shape step draft members
    else .malformed

/-- Reads items in order as the members of the given names into a draft. -/
def readItems {σ : Type} (c : Conventions) (step : σ → String → Node → Reading σ) :
    σ → List String → List Node → Reading σ
  | draft, _, [] => .ok draft
  | draft, [], _ :: _ => if c.surplusItems then .ok draft else .malformed
  | draft, name :: names, node :: nodes => do
    readItems c step (← step draft name node) names nodes

/-- Reads a record into a draft, member by member. -/
def readRecord {σ : Type} (c : Conventions) (shape : Shape) (step : σ → String → Node → Reading σ)
    (draft : σ) : Node → Reading σ
  | .record members => readMembers shape step draft members
  | .list items => if c.recordLists then readItems c step draft shape.names items else .malformed
  | n => if n.isBlankCollection c then .ok draft else .malformed

end Node

end CubeSql
