import CubeSql.Document.Node

/-!
# TOML tables

The tables of a TOML text while they are being written. A table remembers what made it, since that decides
what may still be added: a header defines a table once and for all, a longer header implies the tables on
its way, and dotted keys make tables that only dotted keys of the same table may extend.
-/

namespace CubeSql.Toml

/-- What made a table. -/
inductive Origin where
  /-- Its own header. -/
  | header
  /-- The header of a table within it. -/
  | implied
  /-- A dotted key. -/
  | dotted
deriving DecidableEq, Repr, Inhabited

/-- What stands under a key. -/
inductive Entry where
  /-- A complete value. -/
  | value (node : Node)
  /-- A table. -/
  | table (origin : Origin) (members : List (String × Entry))
  /-- A list of tables, each with its own header: those before the last one, latest first, and the last
  one. -/
  | tables (earlier : List (List (String × Entry))) (last : List (String × Entry))
deriving Inhabited

/-- The entries of a table, in the order in which they were first written. -/
abbrev Members := List (String × Entry)

/-- A key within tables: the keys on the way to it, outermost first, and the key itself. -/
structure KeyPath where
  /-- The keys of the tables around. -/
  parents : List String
  /-- The key itself. -/
  key : String
deriving DecidableEq, Repr, Inhabited

/-- All keys of a path, outermost first. -/
def KeyPath.toList (p : KeyPath) : List String := p.parents ++ [p.key]

namespace Members

/-- Puts an entry under a key, in place of one that is there. -/
def put (key : String) (entry : Entry) : Members → Members
  | [] => [(key, entry)]
  | (k, e) :: ms => if k = key then (key, entry) :: ms else (k, e) :: put key entry ms

/-- Changes the table at the end of a way, where the last table of a list stands for the list. Tables that
are missing on the way are made. A dotted key does not lead into a table that has a header. -/
def alter (made : Origin) (act : Origin → Members → Option Members) :
    List String → Origin → Members → Option Members
  | [], origin, ms => act origin ms
  | key :: way, _, ms =>
    match ms.lookup key with
    | none => do return put key (.table made (← alter made act way made [])) ms
    | some (.table origin inner) =>
      if made = .dotted && origin = .header then none
      else do return put key (.table origin (← alter made act way origin inner)) ms
    | some (.tables earlier last) => do
      return put key (.tables earlier (← alter made act way .header last)) ms
    | some (.value _) => none

/-- Puts a value under a dotted key; nothing where the key is taken or its table is not one of dotted
keys. -/
def insert? (path : KeyPath) (node : Node) (ms : Members) : Option Members :=
  alter .dotted (fun origin ms =>
    if origin = .dotted && (ms.lookup path.key).isNone then some (put path.key (.value node) ms) else none)
    path.parents .dotted ms

/-- Opens a table by its header. -/
def openTable? (path : KeyPath) (ms : Members) : Option Members :=
  alter .implied (fun _ ms =>
    match ms.lookup path.key with
    | none => some (put path.key (.table .header []) ms)
    | some (.table .implied inner) => some (put path.key (.table .header inner) ms)
    | some _ => none) path.parents .header ms

/-- Opens one more table of a list by its header. -/
def openElement? (path : KeyPath) (ms : Members) : Option Members :=
  alter .implied (fun _ ms =>
    match ms.lookup path.key with
    | none => some (put path.key (.tables [] []) ms)
    | some (.tables earlier last) => some (put path.key (.tables (last :: earlier) []) ms)
    | some _ => none) path.parents .header ms

/-- Puts a value under a dotted key of the table that the given header opened; no keys stand for the
outermost table. -/
def insertWithin? (header : List String) (path : KeyPath) (node : Node) (ms : Members) : Option Members :=
  alter .implied (fun _ ms => ms.insert? path node) header .header ms

end Members

/-! ## Trees -/

mutual

/-- The tree of an entry. -/
def Entry.node : Entry → Node
  | .value node => node
  | .table _ members => .record (memberNodes members)
  | .tables earlier last => .list ((tableNodes earlier).reverse ++ [.record (memberNodes last)])

/-- The trees of the members of a table. -/
def memberNodes : List (String × Entry) → List (Node × Node)
  | [] => []
  | (key, entry) :: ms => (.text key, entry.node) :: memberNodes ms

/-- The trees of several tables. -/
def tableNodes : List (List (String × Entry)) → List Node
  | [] => []
  | ms :: rest => .record (memberNodes ms) :: tableNodes rest

end

/-- The tree of a table. -/
def Members.node (ms : Members) : Node := .record (memberNodes ms)

end CubeSql.Toml
