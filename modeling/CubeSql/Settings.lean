import CubeSql.Document.Reading
import CubeSql.Sql.Dialect
import CubeSql.Sql.Query

/-!
# Settings

What may be configured: the dialect, the marker of totals, how comparisons are joined, and whether
relative differences are guarded against division by zero. Every setting has a default.
-/

namespace CubeSql

/-- How comparisons are joined to the base query. -/
inductive ReferenceJoin where
  | left | inner
deriving DecidableEq, Repr, Inhabited

namespace ReferenceJoin

/-- The written name. -/
def name : ReferenceJoin → String
  | left => "left" | inner => "inner"

/-- The joins, in their declared order. -/
def all : List ReferenceJoin := [left, inner]

/-- The join of a written name. -/
def ofName? : String → Option ReferenceJoin := chooseByName name all

theorem ofName?_name (j : ReferenceJoin) : ofName? j.name = some j := by cases j <;> rfl

/-- How joins are written. -/
def words : Words ReferenceJoin := ⟨all.map name, ofName?⟩

/-- The kind of join. -/
def kind : ReferenceJoin → Sql.JoinKind
  | left => .left | inner => .inner

end ReferenceJoin

/-- The settings. -/
structure Settings where
  /-- The dialect in which statements are written unless another is asked for. -/
  dialect : Sql.Dialect
  /-- What stands for the values of a collapsed dimension. -/
  totalsMarker : String
  /-- How comparisons are joined to the base query. -/
  referenceJoin : ReferenceJoin
  /-- Whether relative differences are guarded against division by zero. -/
  guardsDivision : Bool
deriving DecidableEq, Repr

namespace Settings

/-- The default settings. -/
def default : Settings := ⟨.duckdb, "_ROLLUP_TOTALS_", .left, true⟩

instance : Inhabited Settings := ⟨default⟩

/-- The free-form value of settings. -/
def toValue (s : Settings) : Value :=
  .object [("dialect", .text s.dialect.name), ("guard_percentage_division", .bool s.guardsDivision),
    ("reference_join", .text s.referenceJoin.name), ("totals_marker", .text s.totalsMarker)]

/-! ## Reading -/

/-- Settings that are being read. -/
structure Draft where
  /-- The dialect. -/
  dialect : Option Sql.Dialect
  /-- What stands for the values of a collapsed dimension. -/
  totalsMarker : Option String
  /-- How comparisons are joined. -/
  referenceJoin : Option ReferenceJoin
  /-- Whether relative differences are guarded. -/
  guardsDivision : Option Bool
deriving Inhabited

/-- The members of settings. -/
def shape : Node.Shape :=
  ⟨["dialect", "totals_marker", "reference_join", "guard_percentage_division"], false⟩

/-- Reads one member of settings. -/
def Draft.step (c : Conventions) (d : Draft) (name : String) (n : Node) : Reading Draft :=
  match name with
  | "dialect" => do
    return { d with dialect := ← Node.fill d.dialect (n.readChoice c Sql.Dialect.words) }
  | "totals_marker" => do return { d with totalsMarker := ← Node.fill d.totalsMarker n.readText }
  | "reference_join" => do
    return { d with referenceJoin := ← Node.fill d.referenceJoin (n.readChoice c ReferenceJoin.words) }
  | "guard_percentage_division" => do
    return { d with guardsDivision := ← Node.fill d.guardsDivision n.readBool }
  | _ => .malformed

/-- Reads settings; each one that is not given has its default. -/
def read (c : Conventions) (n : Node) : Reading Settings := do
  let d ← n.readRecord c shape (Draft.step c) ⟨none, none, none, none⟩
  return ⟨d.dialect.getD default.dialect, d.totalsMarker.getD default.totalsMarker,
    d.referenceJoin.getD default.referenceJoin, d.guardsDivision.getD default.guardsDivision⟩

end Settings

end CubeSql
