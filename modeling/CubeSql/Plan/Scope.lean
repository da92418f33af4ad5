import CubeSql.Request.Basic
import CubeSql.Sql.Query

/-!
# The tables in scope

The base table of a request and the tables joined to it. A request over one table leaves its columns
unqualified; otherwise the base table has the alias `t0` and the joined tables `t1`, `t2` and so on, in
their declared order. Expressions are lowered to SQL against a scope, which resolves the table that each
column names.
-/

namespace CubeSql

/-- The tables of a request. -/
structure Scope where
  /-- The name of the base table. -/
  base : String
  /-- The names of the joined tables, in order. -/
  joined : List String
deriving DecidableEq, Repr, Inhabited

namespace Scope

/-- The tables of a request, whose base table must have a name. -/
def ofRequest (r : Request) : Except Error Scope :=
  if Text.isBlank r.table then .error .noBaseTable else .ok ⟨r.table, r.joins.map Join.table⟩

/-- Whether columns are qualified: whether any table is joined. -/
def isQualified (s : Scope) : Bool := !s.joined.isEmpty

/-- The alias of the table at a position; the base table stands at position zero. -/
def aliasAt (position : Nat) : String := "t" ++ toString position

/-- The position of the first table of a name. -/
def position? (s : Scope) (name : String) : Option Nat :=
  if name = s.base then some 0 else (s.joined.idxOf? name).map (· + 1)

/-- The qualifier of the columns of the table at a position. -/
def qualifierAt (s : Scope) (position : Nat) : Option String :=
  if s.isQualified then some (aliasAt position) else none

/-- The qualifier of a column that names a table, or names none and so belongs to the base table. -/
def qualifier (s : Scope) : Option String → Except Error (Option String)
  | none => .ok (s.qualifierAt 0)
  | some name =>
    match s.position? name with
    | some position => .ok (s.qualifierAt position)
    | none => .error (.unknownTable name)

/-- The base table as it is selected from. -/
def baseSource (s : Scope) : Sql.Source := .table s.base (s.qualifierAt 0)

/-- The table of the join at a position, as it is joined. -/
def joinSource (s : Scope) (position : Nat) : Except Error Sql.Source :=
  match s.joined[position]? with
  | some name => .ok (.table name (some (aliasAt (position + 1))))
  | none => .error (.noJoin position)

end Scope

/-! ## Lowering -/

namespace Expr

variable {m : Type → Type} [Monad m]

mutual

/-- The SQL expression of an expression, where `qualify` gives the qualifier of a column from the table it
names. Columns are qualified from left to right. -/
def lowerWith (qualify : Option String → m (Option String)) : Expr → m Sql.Expr
  | .column table name => do return .column (← qualify table) name
  | .literal l => return .literal l.value
  | .call f args => do return .call f (← lowerAllWith qualify args)
  | .aggregate a arg => do return .aggregate a (← lowerWith qualify arg)
  | .case branches otherwise => do
    let branches ← lowerBranchesWith qualify branches
    return .case branches (← lowerWith qualify otherwise)
  | .binary op left right => do
    let left ← lowerWith qualify left
    return .binary (.of op) left (← lowerWith qualify right)

/-- The SQL expressions of several expressions. -/
def lowerAllWith (qualify : Option String → m (Option String)) : List Expr → m (List Sql.Expr)
  | [] => return []
  | e :: es => do
    let e ← lowerWith qualify e
    return e :: (← lowerAllWith qualify es)

/-- The SQL expressions of several branches. -/
def lowerBranchesWith (qualify : Option String → m (Option String)) :
    List (Expr × Expr) → m (List (Sql.Expr × Sql.Expr))
  | [] => return []
  | (condition, result) :: branches => do
    let condition ← lowerWith qualify condition
    let result ← lowerWith qualify result
    return (condition, result) :: (← lowerBranchesWith qualify branches)

end

/-- The SQL expression of an expression over the tables of a scope. -/
def lower (s : Scope) (e : Expr) : Except Error Sql.Expr := e.lowerWith s.qualifier

/-- The SQL expression without any qualifiers, whatever tables the columns name. -/
def unqualified (e : Expr) : Sql.Expr := Id.run (e.lowerWith fun _ => pure none)

end Expr

/-- The select item of a field, under its own alias unless another is given. -/
def Field.selectItem (f : Field) (s : Scope) (aliasName : Option String) : Except Error Sql.SelectItem := do
  return ⟨← f.definition.lower s, some (aliasName.getD f.aliasName)⟩

end CubeSql
