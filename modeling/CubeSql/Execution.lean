import CubeSql.Compilation

/-!
# Running a request

The statements of a compiled request are run in order against a database, which is modelled by its answers:
a function from the number of a call and the statement's text to rows or an error. The first error ends the
run. A run also tells which texts the database has seen.
-/

namespace CubeSql

/-- A database: what it answers to the statement of each call, calls being counted from zero. -/
abbrev Database := Nat → String → Except Error (List Row)

/-- The rows of one statement. -/
structure StatementRows where
  /-- The role of the statement. -/
  kind : StatementKind
  /-- Its rows. -/
  rows : List Row
deriving Inhabited

/-- The names of the columns: those of the first row. -/
def StatementRows.columns (s : StatementRows) : List String :=
  match s.rows with
  | [] => []
  | row :: _ => row.map Prod.fst

/-- What came of a run. -/
structure Run where
  /-- The rows of every statement, or the first error. -/
  outcome : Except Error (List StatementRows)
  /-- The texts that the database has seen, in order. -/
  seen : List String

namespace Run

/-- Runs statements with their texts; `call` is the number of the next call. -/
def ofStatements (database : Database) : Nat → List (StatementKind × String) → Run
  | _, [] => ⟨.ok [], []⟩
  | call, (kind, text) :: rest =>
    match database call text with
    | .error e => ⟨.error e, [text]⟩
    | .ok rows =>
      let run := ofStatements database (call + 1) rest
      ⟨run.outcome.map (⟨kind, rows⟩ :: ·), text :: run.seen⟩

/-- Runs a compiled request in a dialect. -/
def ofCompilation (database : Database) (c : Compilation) (d : Sql.Dialect) : Run :=
  ofStatements database 0 ((c.statements.map Statement.kind).zip (c.texts d))

/-- Compiles and runs a request. -/
def ofRequest (database : Database) (r : Request) (settings : Settings) (d : Sql.Dialect) : Run :=
  match Compilation.ofRequest r settings with
  | .ok c => ofCompilation database c d
  | .error e => ⟨.error e, []⟩

/-- All rows, base rows first. -/
def rows (statements : List StatementRows) : List Row := statements.flatMap StatementRows.rows

end Run

end CubeSql
