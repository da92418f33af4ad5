import CubeSql.Proofs.Resolvable

/-!
# Lowering is faithful

An expression is lowered if all tables that its columns name are in scope; otherwise the first column from the
left that names another table is reported. Every column of a lowered expression has the alias under which its
table is selected from or joined, and without these aliases the expression is the unqualified one: what readers
are shown of a predicate and what stands in a statement differ in nothing else.
-/

namespace CubeSql

/-! ## Computations that fail -/

section

variable {ε α β : Type}

/-- The error with which a computation fails. -/
def failure? : Except ε α → Option ε
  | .error e => some e
  | .ok _ => none

theorem failure?_eq_some {x : Except ε α} {e : ε} : failure? x = some e ↔ x = .error e := by
  cases x <;> simp [failure?]

theorem failure?_eq_none {x : Except ε α} : failure? x = none ↔ ∃ a, x = .ok a := by
  cases x <;> simp [failure?]

/-- Of two steps of which the second fails in one way whatever the first returns, the first to fail decides. -/
theorem failure?_bind {x : Except ε α} {f : α → Except ε β} {o : Option ε} (h : ∀ a, failure? (f a) = o) :
    failure? (x >>= f) = (failure? x).or o := by
  cases x with
  | error e => rfl
  | ok a => exact h a

/-- A last step that cannot fail does not matter. -/
theorem failure?_bind_pure {x : Except ε α} {f : α → β} :
    failure? (x >>= fun a => pure (f a)) = failure? x := by
  rw [failure?_bind (o := none) fun a => rfl, Option.or_none]

end

/-! ## Failing -/

namespace Expr

variable {qualify : Option String → Except Error (Option String)}

mutual

/-- Lowering fails as qualifying the columns from left to right does. -/
theorem failure?_lowerWith : ∀ e : Expr,
    failure? (e.lowerWith qualify) = e.mentions.findSome? fun c => failure? (qualify c.1)
  | .column table name => by
    rw [lowerWith, failure?_bind_pure, mentions, List.findSome?_singleton]
  | .literal l => rfl
  | .call f args => by
    rw [lowerWith, failure?_bind_pure, failure?_lowerAllWith args, mentions]
  | .aggregate a arg => by
    rw [lowerWith, failure?_bind_pure, failure?_lowerWith arg, mentions]
  | .case branches otherwise => by
    rw [lowerWith, failure?_bind fun _ => failure?_bind_pure, failure?_lowerBranchesWith branches,
      failure?_lowerWith otherwise, mentions, List.findSome?_append]
  | .binary op left right => by
    rw [lowerWith, failure?_bind fun _ => failure?_bind_pure, failure?_lowerWith left,
      failure?_lowerWith right, mentions, List.findSome?_append]

theorem failure?_lowerAllWith : ∀ es : List Expr,
    failure? (lowerAllWith qualify es) = (mentionsAll es).findSome? fun c => failure? (qualify c.1)
  | [] => rfl
  | e :: es => by
    rw [lowerAllWith, failure?_bind fun _ => failure?_bind_pure, failure?_lowerWith e,
      failure?_lowerAllWith es, mentionsAll, List.findSome?_append]

theorem failure?_lowerBranchesWith : ∀ bs : List (Expr × Expr),
    failure? (lowerBranchesWith qualify bs) =
      (mentionsBranches bs).findSome? fun c => failure? (qualify c.1)
  | [] => rfl
  | (condition, result) :: bs => by
    rw [lowerBranchesWith, failure?_bind fun _ => failure?_bind fun _ => failure?_bind_pure,
      failure?_lowerWith condition, failure?_lowerWith result, failure?_lowerBranchesWith bs,
      mentionsBranches, List.findSome?_append, List.findSome?_append, Option.or_assoc]

end

end Expr

/-- A column may name the table: it is in scope, or there is none. -/
def Scope.Knows (s : Scope) (table : Option String) : Prop := ∀ name ∈ table, name = s.base ∨ name ∈ s.joined

/-- The first column of the expression, from left to right, whose table is not in scope names this one. -/
def Expr.FirstUnknown (s : Scope) (e : Expr) (name : String) : Prop :=
  ∃ before column after, e.mentions = before ++ (some name, column) :: after ∧
    (∀ c ∈ before, s.Knows c.1) ∧ ¬ s.Knows (some name)

namespace Scope

variable {s : Scope} {table : Option String}

theorem failure?_qualifier_eq_none : failure? (s.qualifier table) = none ↔ s.Knows table := by
  rw [failure?_eq_none, exists_qualifier_iff, Knows]

theorem failure?_qualifier_eq_some {fault : Error} : failure? (s.qualifier table) = some fault ↔
    ∃ name, table = some name ∧ ¬ s.Knows (some name) ∧ fault = .unknownTable name := by
  by_cases hknows : s.Knows table
  · rw [failure?_qualifier_eq_none.mpr hknows]
    constructor
    · exact nofun
    · rintro ⟨name, rfl, hunknown, -⟩
      exact absurd hknows hunknown
  · cases table with
    | none => exact absurd (fun _ => nofun) hknows
    | some name =>
      have hposition : s.position? name = none := by
        cases hp : s.position? name with
        | none => rfl
        | some position =>
          have hok : failure? (s.qualifier (some name)) = none := by simp [qualifier, hp, failure?]
          exact absurd (failure?_qualifier_eq_none.mp hok) hknows
      simp [qualifier, hposition, failure?, hknows, eq_comm]

end Scope

theorem Expr.lower_eq_error_iff {s : Scope} {e : Expr} {fault : Error} :
    e.lower s = .error fault ↔ ∃ name, e.FirstUnknown s name ∧ fault = .unknownTable name := by
  rw [← failure?_eq_some, lower, failure?_lowerWith, List.findSome?_eq_some_iff]
  constructor
  · rintro ⟨before, ⟨table, column⟩, after, hmentions, hfails, hbefore⟩
    obtain ⟨name, rfl, hunknown, rfl⟩ := Scope.failure?_qualifier_eq_some.mp hfails
    exact ⟨name, ⟨before, column, after, hmentions,
      fun c hc => Scope.failure?_qualifier_eq_none.mp (hbefore c hc), hunknown⟩, rfl⟩
  · rintro ⟨name, ⟨before, column, after, hmentions, hbefore, hunknown⟩, rfl⟩
    exact ⟨before, (some name, column), after, hmentions,
      Scope.failure?_qualifier_eq_some.mpr ⟨name, rfl, hunknown, rfl⟩,
      fun c hc => Scope.failure?_qualifier_eq_none.mpr (hbefore c hc)⟩

/-! ## Qualifiers -/

namespace Scope

/-- A table of the name is selected from or joined under the alias. -/
def Lists (s : Scope) (name : String) (aliasName : Option String) : Prop :=
  s.baseSource = .table name aliasName ∨ ∃ position, s.joinSource position = .ok (.table name aliasName)

/-- The alias is one of the table that a column names; the base table is that of a column that names none. -/
def ListsFor (s : Scope) : Option String → Option String → Prop
  | none, aliasName => s.baseSource = .table s.base aliasName
  | some name, aliasName => s.Lists name aliasName

variable {s : Scope}

/-- A joined table has an alias, as tables are qualified where any is joined. -/
theorem qualifierAt_of_getElem? {position : Nat} {name : String} (h : s.joined[position]? = some name) (i : Nat) :
    s.qualifierAt i = some (aliasAt i) := by
  have hjoined : s.joined ≠ [] := by
    intro hnil
    rw [hnil] at h
    cases h
  exact if_pos (by simpa [isQualified] using hjoined)

theorem listsFor_of_qualifier {table q : Option String} (h : s.qualifier table = .ok q) :
    s.ListsFor table q := by
  cases table with
  | none =>
    cases h
    rfl
  | some name =>
    cases hp : s.position? name with
    | none => simp [qualifier, hp] at h
    | some position =>
      simp only [qualifier, hp, Except.ok.injEq] at h
      unfold position? at hp
      split_ifs at hp with hbase
      · cases hp
        exact .inl (by rw [baseSource, hbase, h])
      · obtain ⟨i, hi, rfl⟩ := Option.map_eq_some_iff.mp hp
        have hname : s.joined[i]? = some name := by
          obtain ⟨hlt, heq, -⟩ := List.idxOf?_eq_some_iff.mp hi
          rw [List.getElem?_eq_getElem hlt, heq]
        rw [qualifierAt_of_getElem? hname] at h
        exact .inr ⟨i, joinSource_eq_ok.mpr ⟨name, hname, by rw [h]⟩⟩

theorem eq_none_of_listsFor (hnone : s.joined = []) {table q : Option String} (h : s.ListsFor table q) :
    q = none := by
  have hbase : ∀ name, s.baseSource = .table name q → q = none := by
    intro name heq
    simp only [baseSource, Sql.Source.table.injEq, qualifierAt, isQualified, hnone] at heq
    exact heq.2.symm
  cases table with
  | none => exact hbase _ h
  | some name =>
    rcases h with h | ⟨position, h⟩
    · exact hbase _ h
    · obtain ⟨name, hname, -⟩ := joinSource_eq_ok.mp h
      rw [hnone] at hname
      cases hname

end Scope

/-! ## Erasure -/

namespace Sql.Expr

mutual

/-- The expression with no column qualified. -/
def withoutQualifiers : Expr → Expr
  | .column _ name => .column none name
  | .literal v => .literal v
  | .call f args => .call f (allWithoutQualifiers args)
  | .case branches otherwise => .case (branchesWithoutQualifiers branches) (withoutQualifiers otherwise)
  | .binary op left right => .binary op (withoutQualifiers left) (withoutQualifiers right)
  | .aggregate a arg => .aggregate a (withoutQualifiers arg)
  | .inList subject items negated => .inList (withoutQualifiers subject) (allWithoutQualifiers items) negated
  | .between subject low high =>
    .between (withoutQualifiers subject) (withoutQualifiers low) (withoutQualifiers high)
  | .isNull subject negated => .isNull (withoutQualifiers subject) negated
  | .interval quantity unit => .interval quantity unit

/-- Several expressions with no column qualified. -/
def allWithoutQualifiers : List Expr → List Expr
  | [] => []
  | e :: es => withoutQualifiers e :: allWithoutQualifiers es

/-- Several branches with no column qualified. -/
def branchesWithoutQualifiers : List (Expr × Expr) → List (Expr × Expr)
  | [] => []
  | (condition, result) :: branches =>
    (withoutQualifiers condition, withoutQualifiers result) :: branchesWithoutQualifiers branches

end

end Sql.Expr

namespace Expr

theorem unqualified_all (es : List Expr) :
    Id.run (lowerAllWith (fun _ => pure none) es) = es.map unqualified := by
  induction es with
  | nil => rfl
  | cons e es ih => simp [lowerAllWith, unqualified, ih]

theorem unqualified_branches (bs : List (Expr × Expr)) :
    Id.run (lowerBranchesWith (fun _ => pure none) bs) = bs.map (Prod.map unqualified unqualified) := by
  induction bs with
  | nil => rfl
  | cons b bs ih =>
    simp only [lowerBranchesWith, Id.run_bind, Id.run_pure, ih, List.map_cons]
    rfl

theorem unqualified_call (f : Function) (args : List Expr) :
    (call f args).unqualified = .call f (args.map unqualified) := by
  rw [← unqualified_all]
  rfl

theorem unqualified_case (bs : List (Expr × Expr)) (otherwise : Expr) :
    (case bs otherwise).unqualified =
      .case (bs.map (Prod.map unqualified unqualified)) otherwise.unqualified := by
  rw [← unqualified_branches]
  rfl

variable {qualify : Option String → Except Error (Option String)}

mutual

/-- Whatever qualifies the columns, without their qualifiers the lowered expression is the unqualified one. -/
theorem withoutQualifiers_of_lowerWith : ∀ {e : Expr} {e' : Sql.Expr}, e.lowerWith qualify = .ok e' →
    e'.withoutQualifiers = e.unqualified
  | .column table name, e', h => by
    simp only [lowerWith, bind_eq_ok, pure_eq_ok] at h
    obtain ⟨q, -, rfl⟩ := h
    rfl
  | .literal l, e', h => by
    simp only [lowerWith, pure_eq_ok] at h
    subst h
    rfl
  | .call f args, e', h => by
    simp only [lowerWith, bind_eq_ok, pure_eq_ok] at h
    obtain ⟨args', hargs, rfl⟩ := h
    rw [Sql.Expr.withoutQualifiers, allWithoutQualifiers_of_lowerAllWith hargs, unqualified_call]
  | .aggregate a arg, e', h => by
    simp only [lowerWith, bind_eq_ok, pure_eq_ok] at h
    obtain ⟨arg', harg, rfl⟩ := h
    rw [Sql.Expr.withoutQualifiers, withoutQualifiers_of_lowerWith harg]
    rfl
  | .case branches otherwise, e', h => by
    simp only [lowerWith, bind_eq_ok, pure_eq_ok] at h
    obtain ⟨branches', hb, otherwise', ho, rfl⟩ := h
    rw [Sql.Expr.withoutQualifiers, branchesWithoutQualifiers_of_lowerBranchesWith hb,
      withoutQualifiers_of_lowerWith ho, unqualified_case]
  | .binary op left right, e', h => by
    simp only [lowerWith, bind_eq_ok, pure_eq_ok] at h
    obtain ⟨left', hl, right', hr, rfl⟩ := h
    rw [Sql.Expr.withoutQualifiers, withoutQualifiers_of_lowerWith hl, withoutQualifiers_of_lowerWith hr]
    rfl

theorem allWithoutQualifiers_of_lowerAllWith : ∀ {es : List Expr} {es' : List Sql.Expr},
    lowerAllWith qualify es = .ok es' → Sql.Expr.allWithoutQualifiers es' = es.map unqualified
  | [], es', h => by
    simp only [lowerAllWith, pure_eq_ok] at h
    subst h
    rfl
  | e :: es, es', h => by
    simp only [lowerAllWith, bind_eq_ok, pure_eq_ok] at h
    obtain ⟨e', he, es'', hes, rfl⟩ := h
    rw [Sql.Expr.allWithoutQualifiers, withoutQualifiers_of_lowerWith he,
      allWithoutQualifiers_of_lowerAllWith hes, List.map_cons]

theorem branchesWithoutQualifiers_of_lowerBranchesWith :
    ∀ {bs : List (Expr × Expr)} {bs' : List (Sql.Expr × Sql.Expr)}, lowerBranchesWith qualify bs = .ok bs' →
      Sql.Expr.branchesWithoutQualifiers bs' = bs.map (Prod.map unqualified unqualified)
  | [], bs', h => by
    simp only [lowerBranchesWith, pure_eq_ok] at h
    subst h
    rfl
  | (condition, result) :: bs, bs', h => by
    simp only [lowerBranchesWith, bind_eq_ok, pure_eq_ok] at h
    obtain ⟨condition', hc, result', hr, bs'', hbs, rfl⟩ := h
    rw [Sql.Expr.branchesWithoutQualifiers, withoutQualifiers_of_lowerWith hc,
      withoutQualifiers_of_lowerWith hr, branchesWithoutQualifiers_of_lowerBranchesWith hbs, List.map_cons,
      Prod.map_apply]

end

/-! ## Lowered expressions -/

/-- The expression over the aliases of a scope says the same as the one over its tables. -/
structure LoweredAs (s : Scope) (e : Expr) (e' : Sql.Expr) : Prop where
  /-- It names the same columns in the same order, each under the alias of its table. -/
  columns : List.Forall₂ (fun c c' => s.ListsFor c.1 c'.1 ∧ c'.2 = c.2) e.mentions e'.occurrences
  /-- Over one table no column is qualified. -/
  unqualified : s.joined = [] → ∀ c ∈ e'.occurrences, c.1 = none
  /-- But for the aliases it is the unqualified expression. -/
  erased : e'.withoutQualifiers = e.unqualified

theorem loweredAs_of_lower {s : Scope} {e : Expr} {e' : Sql.Expr} (h : e.lower s = .ok e') :
    e.LoweredAs s e' := by
  have hcolumns : List.Forall₂ (fun c c' => s.ListsFor c.1 c'.1 ∧ c'.2 = c.2) e.mentions e'.occurrences :=
    (qualified_of_lowerWith h).imp fun _ _ hc => ⟨Scope.listsFor_of_qualifier hc.1, hc.2.symm⟩
  refine ⟨hcolumns, fun hnone c hc => ?_, withoutQualifiers_of_lowerWith h⟩
  obtain ⟨_, -, hlists, -⟩ := exists_left_of_forall₂ hcolumns hc
  exact Scope.eq_none_of_listsFor hnone hlists

end Expr

/-- An expression is lowered exactly if all tables that it names are in scope; otherwise the first that is not
is reported. What it is lowered to names its columns under the aliases of their tables, and is the unqualified
expression without them. -/
theorem lowered_faithfully (s : Scope) (e : Expr) :
    ((∃ e', e.lower s = .ok e') ↔ ∀ c ∈ e.mentions, s.Knows c.1) ∧
      (∀ fault, e.lower s = .error fault ↔ ∃ name, e.FirstUnknown s name ∧ fault = .unknownTable name) ∧
      ∀ e', e.lower s = .ok e' → e.LoweredAs s e' :=
  ⟨Expr.exists_lower_iff, fun _ => Expr.lower_eq_error_iff, fun _ => Expr.loweredAs_of_lower⟩

/-- Whether a visit is to a page of a title, or of what else it is. -/
def Expr.visitTitle : Expr :=
  .case [(.binary .eq (.column (some "visits") "kind") (.literal (.ofValue (.text "page"))),
    .call .lower [.column (some "pages") "title"])] (.column none "kind")

/-- Over visits and two copies of their pages the title is lowered; over the visits alone the pages are
reported. -/
theorem lowered_faithfully_visitTitle :
    (∃ e', Expr.visitTitle.lower ⟨"visits", ["pages", "pages"]⟩ = .ok e' ∧
        Expr.visitTitle.LoweredAs ⟨"visits", ["pages", "pages"]⟩ e') ∧
      Expr.visitTitle.lower ⟨"visits", []⟩ = .error (.unknownTable "pages") := by
  have hunknown : Expr.visitTitle.FirstUnknown ⟨"visits", []⟩ "pages" := by
    refine ⟨[(some "visits", "kind")], "title", [(none, "kind")], rfl, ?_, ?_⟩
    · intro c hc name hname
      cases List.mem_singleton.mp hc
      exact .inl (Option.mem_some.mp hname).symm
    · intro hknows
      exact absurd (hknows "pages" rfl) (by decide)
  obtain ⟨e', he'⟩ : ∃ e', Expr.visitTitle.lower ⟨"visits", ["pages", "pages"]⟩ = .ok e' :=
    exists_of_isOk (by decide)
  exact ⟨⟨e', he', (lowered_faithfully _ _).2.2 e' he'⟩,
    ((lowered_faithfully _ _).2.1 _).mpr ⟨"pages", hunknown, rfl⟩⟩

end CubeSql
