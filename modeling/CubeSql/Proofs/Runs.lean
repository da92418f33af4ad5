import CubeSql.Execution
import CubeSql.Proofs.Plan

/-!
# The rows of a run

A run hands the statements of a request to the database one after another and stops at the first error. The
database has then seen the statements up to the one that failed, and otherwise all of them; each statement is
returned with its own rows, and all rows together are those of the answers in their order, the base rows first.
-/

namespace CubeSql

/-- What the database answers to texts that are run in order; `call` is the number of the first call. -/
def Database.answers (database : Database) (call : Nat) (texts : List String) :
    List (Except Error (List Row)) :=
  texts.mapIdx fun i text => database (call + i) text

/-- The answer at a position is an error, and rows stand at all positions before it. -/
def FailsFirstAt (answers : List (Except Error (List Row))) (position : Nat) (e : Error) : Prop :=
  answers[position]? = some (.error e) ∧ ∀ i < position, ∃ rows, answers[i]? = some (.ok rows)

variable {database : Database} {call : Nat}

theorem Database.answers_cons (text : String) (texts : List String) :
    database.answers call (text :: texts) = database call text :: database.answers (call + 1) texts := by
  simp only [answers, List.mapIdx_cons, Nat.add_zero, Nat.add_comm 1, Nat.add_assoc]

namespace Run

variable {statement : StatementKind × String} {statements : List (StatementKind × String)}

/-! ## One statement -/

theorem ofStatements_of_error {e : Error} (h : database call statement.2 = .error e) :
    ofStatements database call (statement :: statements) = ⟨.error e, [statement.2]⟩ := by
  simp only [ofStatements, h]

theorem ofStatements_of_ok {rows : List Row} (h : database call statement.2 = .ok rows) :
    ofStatements database call (statement :: statements) =
      ⟨(ofStatements database (call + 1) statements).outcome.map (⟨statement.1, rows⟩ :: ·),
        statement.2 :: (ofStatements database (call + 1) statements).seen⟩ := by
  simp only [ofStatements, h]

/-! ## All statements -/

/-- Where every answer is rows, each statement is returned with its own. -/
theorem ofStatements_of_rows {rows : List (List Row)}
    (h : database.answers call (statements.map Prod.snd) = rows.map .ok) :
    ofStatements database call statements =
      ⟨.ok (List.zipWith StatementRows.mk (statements.map Prod.fst) rows), statements.map Prod.snd⟩ := by
  induction statements generalizing call rows with
  | nil =>
    obtain rfl : rows = [] := List.map_eq_nil_iff.mp h.symm
    rfl
  | cons statement statements ih =>
    rw [List.map_cons, Database.answers_cons] at h
    obtain ⟨first, rest, rfl, hfirst, hrest⟩ := List.map_eq_cons_iff.mp h.symm
    rw [ofStatements_of_ok hfirst.symm, ih hrest.symm]
    rfl

/-- The first error is returned, and nothing is run behind it. -/
theorem ofStatements_of_failsFirstAt {position : Nat} {e : Error}
    (h : FailsFirstAt (database.answers call (statements.map Prod.snd)) position e) :
    ofStatements database call statements =
      ⟨.error e, (statements.map Prod.snd).take (position + 1)⟩ := by
  induction statements generalizing call position with
  | nil => cases h.1
  | cons statement statements ih =>
    rw [List.map_cons, Database.answers_cons] at h
    obtain ⟨herror, hrows⟩ := h
    cases position with
    | zero => exact ofStatements_of_error (Option.some.inj herror)
    | succ position =>
      obtain ⟨rows, hfirst⟩ := hrows 0 (Nat.succ_pos position)
      have hrest : FailsFirstAt (database.answers (call + 1) (statements.map Prod.snd)) position e :=
        ⟨herror, fun i hi => hrows (i + 1) (Nat.succ_lt_succ hi)⟩
      rw [ofStatements_of_ok (Option.some.inj hfirst), ih hrest]
      rfl

variable {kinds : List StatementKind} {rows : List (List Row)}

theorem map_rows_zipWith (h : kinds.length = rows.length) :
    (List.zipWith StatementRows.mk kinds rows).map StatementRows.rows = rows := by
  have hsecond := List.map_snd_zip (Nat.le_of_eq h.symm)
  rw [List.zip, List.map_zipWith] at hsecond
  rwa [List.map_zipWith]

theorem map_kind_zipWith (h : kinds.length = rows.length) :
    (List.zipWith StatementRows.mk kinds rows).map StatementRows.kind = kinds := by
  have hfirst := List.map_fst_zip (Nat.le_of_eq h)
  rw [List.zip, List.map_zipWith] at hfirst
  rwa [List.map_zipWith]

end Run

/-! ## Requests -/

/-- Answers are rows throughout, or there is a first error among them. -/
theorem failsFirstAt_or_rows (answers : List (Except Error (List Row))) :
    (∃ position e, FailsFirstAt answers position e) ∨ ∃ rows : List (List Row), answers = rows.map .ok := by
  induction answers with
  | nil => exact .inr ⟨[], rfl⟩
  | cons answer answers ih =>
    cases answer with
    | error e => exact .inl ⟨0, e, rfl, fun i hi => absurd hi (Nat.not_lt_zero i)⟩
    | ok rows =>
      rcases ih with ⟨position, e, herror, hrows⟩ | ⟨rest, rfl⟩
      · refine .inl ⟨position + 1, e, herror, fun i hi => ?_⟩
        cases i with
        | zero => exact ⟨rows, rfl⟩
        | succ i => exact hrows i (Nat.lt_of_succ_lt_succ hi)
      · exact .inr ⟨rows :: rest, rfl⟩

/-- The run has returned the given rows for the statements: each statement in its role with its own rows, all rows
in order with those of the base statement first, and the database has seen every text. -/
structure Run.Returns (run : Run) (c : Compilation) (texts : List String) (rows : List (List Row))
    (results : List StatementRows) : Prop where
  outcome : run.outcome = .ok results
  seen : run.seen = texts
  kinds : results.map StatementRows.kind = c.statements.map Statement.kind
  rows_of_each : results.map StatementRows.rows = rows
  all_rows : Run.rows results = rows.flatten
  base_first : results.head?.map StatementRows.kind = some .base

namespace Compilation

variable {database : Database} {c : Compilation} {d : Sql.Dialect}

theorem map_fst_zip_texts (c : Compilation) (d : Sql.Dialect) :
    ((c.statements.map Statement.kind).zip (c.texts d)).map Prod.fst = c.statements.map Statement.kind :=
  List.map_fst_zip (by simp [texts])

theorem map_snd_zip_texts (c : Compilation) (d : Sql.Dialect) :
    ((c.statements.map Statement.kind).zip (c.texts d)).map Prod.snd = c.texts d :=
  List.map_snd_zip (by simp [texts])

theorem run_of_failsFirstAt {position : Nat} {e : Error}
    (h : FailsFirstAt (database.answers 0 (c.texts d)) position e) :
    Run.ofCompilation database c d = ⟨.error e, (c.texts d).take (position + 1)⟩ := by
  rw [← map_snd_zip_texts] at h
  rw [Run.ofCompilation, Run.ofStatements_of_failsFirstAt h, map_snd_zip_texts]

theorem run_of_rows (hbase : c.statements.head?.map Statement.kind = some .base) {rows : List (List Row)}
    (h : database.answers 0 (c.texts d) = rows.map .ok) :
    ∃ results, (Run.ofCompilation database c d).Returns c (c.texts d) rows results := by
  have hlength : (c.statements.map Statement.kind).length = rows.length := by
    have hanswers := congrArg List.length h
    simpa [Database.answers, texts] using hanswers
  have hkinds := Run.map_kind_zipWith hlength
  have hrun := h
  rw [← map_snd_zip_texts] at hrun
  have hdone := Run.ofStatements_of_rows hrun
  rw [map_snd_zip_texts, map_fst_zip_texts] at hdone
  refine ⟨List.zipWith StatementRows.mk (c.statements.map Statement.kind) rows, ?_, ?_, hkinds, ?_,
    ?_, ?_⟩
  · rw [Run.ofCompilation, hdone]
  · rw [Run.ofCompilation, hdone]
  · exact Run.map_rows_zipWith hlength
  · rw [Run.rows, List.flatMap_def, Run.map_rows_zipWith hlength]
  · rw [← List.head?_map, hkinds, List.head?_map, hbase]

end Compilation

/-- A request that does not compile is answered with its fault and nothing is run. Otherwise the database
is asked the texts of the statements in the dialect: the first error among its answers is returned, and it has
seen the texts up to the one it failed on; without an error every statement is returned with the rows of its own
answer. -/
theorem requests_return_their_rows (database : Database) (r : Request) (settings : Settings)
    (d : Sql.Dialect) :
    (∀ e, Compilation.ofRequest r settings = .error e →
      Run.ofRequest database r settings d = ⟨.error e, []⟩) ∧
    ∀ c texts, Compilation.ofRequest r settings = .ok c →
      c.statements.map (fun s => Sql.Query.text d.spelling s.query) = texts →
      ((∃ position e, FailsFirstAt (database.answers 0 texts) position e) ∨
        ∃ rows : List (List Row), database.answers 0 texts = rows.map .ok) ∧
      (∀ position e, FailsFirstAt (database.answers 0 texts) position e →
        Run.ofRequest database r settings d = ⟨.error e, texts.take (position + 1)⟩) ∧
      ∀ rows : List (List Row), database.answers 0 texts = rows.map .ok →
        ∃ results, (Run.ofRequest database r settings d).Returns c texts rows results := by
  constructor
  · intro e he
    rw [Run.ofRequest, he]
  · intro c texts hc htexts
    obtain rfl : c.texts d = texts := htexts
    have hrun : Run.ofRequest database r settings d = Run.ofCompilation database c d := by
      rw [Run.ofRequest, hc]
    obtain ⟨p, -, rfl⟩ := Compilation.ofRequest_eq_ok.mp hc
    refine ⟨failsFirstAt_or_rows _, fun position e hfails => ?_, fun rows hrows => ?_⟩
    · rw [hrun, Compilation.run_of_failsFirstAt hfails]
    · rw [hrun]
      exact Compilation.run_of_rows rfl hrows

/-- A database that answers the number of each call as the clicks, and is lost at the second call. -/
def Database.lostAtSecond : Database := fun call _ =>
  if call = 1 then .error (.execution "connection lost") else .ok [[("$clicks", .int call)]]

/-- A database that answers every call with its number as the clicks. -/
def Database.counting : Database := fun call _ => .ok [[("$clicks", .int call)]]

/-- Of the three statements of the clicks by day two are seen where the second fails; where none does the rows
are returned in their order. A request that selects nothing is not run. -/
theorem requests_return_their_rows_clicksByDay :
    (∃ c texts, Compilation.ofRequest .clicksByDay .default = .ok c ∧
      c.statements.map (fun s => Sql.Query.text Sql.Dialect.postgres.spelling s.query) = texts ∧
      Run.ofRequest .lostAtSecond .clicksByDay .default .postgres =
        ⟨.error (.execution "connection lost"), texts.take 2⟩ ∧
      ∃ results, (Run.ofRequest .counting .clicksByDay .default .postgres).Returns c texts
        [[[("$clicks", .int 0)]], [[("$clicks", .int 1)]], [[("$clicks", .int 2)]]] results) ∧
    Run.ofRequest .counting { Request.clicksByDay with dimensions := [], metrics := [] } .default .postgres =
      ⟨.error .emptyProjection, []⟩ := by
  obtain ⟨c, hc⟩ := compiles_clicksByDay
  have hcount : (Compilation.ofRequest .clicksByDay .default).toOption.map
      (fun c => c.statements.length) = some 3 := by decide +kernel
  rw [hc] at hcount
  obtain ⟨first, second, third, htexts⟩ : ∃ first second third,
      c.statements.map (fun s => Sql.Query.text Sql.Dialect.postgres.spelling s.query) =
        [first, second, third] :=
    List.length_eq_three.mp (by rw [List.length_map]; exact Option.some.inj hcount)
  have hlost : FailsFirstAt (Database.lostAtSecond.answers 0 [first, second, third]) 1
      (.execution "connection lost") := by
    refine ⟨rfl, fun i hi => ?_⟩
    obtain rfl : i = 0 := Nat.lt_one_iff.mp hi
    exact ⟨_, rfl⟩
  refine ⟨⟨c, _, hc, htexts, ?_, ?_⟩, ?_⟩
  · exact ((requests_return_their_rows _ _ _ _).2 c _ hc htexts).2.1 1 _ hlost
  · exact ((requests_return_their_rows _ _ _ _).2 c _ hc htexts).2.2 _ rfl
  · exact (requests_return_their_rows _ _ _ _).1 _ rfl

end CubeSql
