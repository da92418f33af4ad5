import CubeSql.Proofs.Interpretation
import CubeSql.Proofs.Selection

/-!
# The conditions of a join

A join is on a list of conditions, the conjuncts of the condition that the request states. However the
conjunctions are nested, the list holds their parts from left to right, it is lowered exactly if the condition is,
and in the three-valued logic of SQL the listed conditions together come to what the condition comes to.
-/

namespace CubeSql

universe u

/-! ## Three-valued logic -/

/-- What a condition comes to: where a value is absent it may be neither true nor false. -/
inductive Truth where
  | true | false | unknown
deriving DecidableEq, Repr

namespace Truth

/-- The conjunction is false if a side is, and otherwise unknown if a side is. -/
protected def and : Truth → Truth → Truth
  | .false, _ => .false
  | _, .false => .false
  | .true, .true => .true
  | _, _ => .unknown

/-- Several conditions with AND between them, which is read from the left. -/
def all (ts : List Truth) : Truth := ts.foldl Truth.and .true

instance : Std.Associative Truth.and where
  assoc a b c := by cases a <;> cases b <;> cases c <;> rfl

theorem true_and (t : Truth) : Truth.true.and t = t := by
  cases t <;> rfl

theorem and_true (t : Truth) : t.and .true = t := by
  cases t <;> rfl

theorem and_eq_true_iff {a b : Truth} : a.and b = .true ↔ a = .true ∧ b = .true := by
  cases a <;> cases b <;> decide

theorem foldl_and (t : Truth) (ts : List Truth) : ts.foldl Truth.and t = t.and (all ts) := by
  have hassoc : ts.foldl Truth.and (t.and .true) = t.and (all ts) := List.foldl_assoc
  rwa [and_true] at hassoc

theorem all_singleton (t : Truth) : all [t] = t := true_and t

theorem all_append (ts us : List Truth) : all (ts ++ us) = (all ts).and (all us) := by
  rw [all, List.foldl_append, foldl_and]
  rfl

/-- Several conditions are true together exactly if each of them is true. -/
theorem all_eq_true_iff {ts : List Truth} : all ts = .true ↔ ∀ t ∈ ts, t = .true := by
  induction ts with
  | nil => exact ⟨fun _ => nofun, fun _ => rfl⟩
  | cons t ts ih =>
    have hcons : all (t :: ts) = t.and (all ts) := by
      rw [← List.singleton_append, all_append, all_singleton]
    rw [hcons, and_eq_true_iff, ih, List.forall_mem_cons]

end Truth

/-! ## Conjunctions -/

/-- The expression is made of the parts, from left to right, by conjunctions nested in some way; no part is a
conjunction itself. -/
inductive Conjoins {ε : Type} (and : ε → ε → ε) : List ε → ε → Prop where
  | part {e : ε} (h : ∀ left right, e ≠ and left right) : Conjoins and [e] e
  | both {lefts rights : List ε} {left right : ε} (hl : Conjoins and lefts left)
      (hr : Conjoins and rights right) : Conjoins and (lefts ++ rights) (and left right)

/-- The expression is split into its conjuncts. -/
structure SplitsInto {ε : Type} (and : ε → ε → ε) (e : ε) (conjuncts : List ε) : Prop where
  /-- The conjuncts, and no other list, are what the expression is made of from left to right. -/
  conjoins : ∀ parts, Conjoins and parts e ↔ parts = conjuncts
  /-- No conjunct is a conjunction. -/
  apart : ∀ part ∈ conjuncts, ∀ left right, part ≠ and left right

namespace Conjoins

variable {ε : Type} {and : ε → ε → ε} {parts : List ε} {e : ε}

theorem ne_and (h : Conjoins and parts e) : ∀ part ∈ parts, ∀ left right, part ≠ and left right := by
  induction h with
  | part h =>
    intro part hpart
    rwa [List.mem_singleton.mp hpart]
  | both _ _ ihl ihr => exact List.forall_mem_append.mpr ⟨ihl, ihr⟩

/-- An expression is made of one list of parts only, that which a function finds by going into conjunctions. -/
theorem eq_split (h : Conjoins and parts e) {split : ε → List ε}
    (hpart : ∀ e, (∀ left right, e ≠ and left right) → split e = [e])
    (hboth : ∀ left right, split (and left right) = split left ++ split right) : parts = split e := by
  induction h with
  | part h => rw [hpart _ h]
  | both _ _ ihl ihr => rw [hboth, ← ihl, ← ihr]

/-- What takes conjunctions to conjunctions of truth values takes the expression to all of its parts. -/
theorem truth_eq_all (h : Conjoins and parts e) (truth : ε → Truth)
    (hand : ∀ left right, truth (and left right) = (truth left).and (truth right)) :
    truth e = Truth.all (parts.map truth) := by
  induction h with
  | part _ => rw [List.map_singleton, Truth.all_singleton]
  | both _ _ ihl ihr => rw [hand, ihl, ihr, List.map_append, Truth.all_append]

end Conjoins

/-- A function that goes into conjunctions splits every expression, if all expressions are reached by joining
those that are no conjunctions. -/
theorem SplitsInto.of_split {ε : Type} {and : ε → ε → ε} {split : ε → List ε}
    (hpart : ∀ e, (∀ left right, e ≠ and left right) → split e = [e])
    (hboth : ∀ left right, split (and left right) = split left ++ split right)
    (induct : ∀ P : ε → Prop, (∀ left right, P left → P right → P (and left right)) →
      (∀ e, (∀ left right, e ≠ and left right) → P e) → ∀ e, P e) (e : ε) :
    SplitsInto and e (split e) := by
  have hconjoins : Conjoins and (split e) e := by
    refine induct (fun e => Conjoins and (split e) e) ?_ ?_ e
    · intro left right ihl ihr
      rw [hboth]
      exact .both ihl ihr
    · intro e he
      rw [hpart e he]
      exact .part he
  refine ⟨fun parts => ⟨fun hparts => hparts.eq_split hpart hboth, ?_⟩, hconjoins.ne_and⟩
  rintro rfl
  exact hconjoins

/-! ## Conditions as stated -/

namespace Expr

/-- A conjunction. -/
def both (left right : Expr) : Expr := .binary .and left right

theorem conjuncts_of_ne {e : Expr} (h : ∀ left right, e ≠ both left right) : e.conjuncts = [e] :=
  conjuncts.eq_2 e h

theorem splitsInto_conjuncts (e : Expr) : SplitsInto both e e.conjuncts :=
  .of_split (fun _ => conjuncts_of_ne) (fun _ _ => rfl) (fun P => conjuncts.induct P) e

end Expr

/-! ## Lowered conditions -/

namespace Sql.Expr

/-- A conjunction. -/
def both (left right : Expr) : Expr := .binary (.of .and) left right

/-- The parts that are joined by the outermost conjunctions, from left to right. -/
def conjuncts : Expr → List Expr
  | .binary (.of .and) left right => conjuncts left ++ conjuncts right
  | e => [e]

/-- What the expression comes to where the parts that are no conjunctions come to the given truth values. -/
def truth (assigned : Expr → Truth) : Expr → Truth
  | .binary (.of .and) left right => (truth assigned left).and (truth assigned right)
  | e => assigned e

theorem conjuncts_of_ne {e : Expr} (h : ∀ left right, e ≠ both left right) : e.conjuncts = [e] :=
  conjuncts.eq_2 e h

theorem truth_of_ne (assigned : Expr → Truth) {e : Expr} (h : ∀ left right, e ≠ both left right) :
    e.truth assigned = assigned e :=
  truth.eq_2 assigned e h

theorem splitsInto_conjuncts (e : Expr) : SplitsInto both e e.conjuncts :=
  .of_split (fun _ => conjuncts_of_ne) (fun _ _ => rfl) (fun P => conjuncts.induct P) e

/-- The listed conditions together are what the condition is. -/
structure MeansAll (e : Expr) (listed : List Expr) : Prop where
  /-- Together they come to what the condition comes to, whatever truth values its conjuncts have. -/
  truth : ∀ assigned : Expr → Truth, e.truth assigned = Truth.all (listed.map assigned)
  /-- Rows match exactly if every one of them is true. -/
  matching : ∀ assigned : Expr → Truth, e.truth assigned = .true ↔ ∀ part ∈ listed, assigned part = .true
  /-- So they do for every database that works out conjunctions by the three-valued logic. -/
  value : ∀ {V : Type u} (I : Interpretation V) (truthOf : V → Truth),
    (∀ a b, truthOf (I.binary (.of .and) a b) = (truthOf a).and (truthOf b)) →
      ∀ ρ, truthOf (I.eval ρ e) = Truth.all (listed.map fun part => truthOf (I.eval ρ part))

theorem meansAll_conjuncts (e : Expr) : MeansAll.{u} e e.conjuncts := by
  have hsplit := e.splitsInto_conjuncts
  have hconjoins := (hsplit.conjoins _).mpr rfl
  have htruth : ∀ assigned, e.truth assigned = Truth.all (e.conjuncts.map assigned) := by
    intro assigned
    have hparts : e.conjuncts.map (truth assigned) = e.conjuncts.map assigned :=
      List.map_congr_left fun part hpart => truth_of_ne assigned (hsplit.apart part hpart)
    rw [← hparts]
    exact hconjoins.truth_eq_all (truth assigned) fun _ _ => rfl
  refine ⟨htruth, fun assigned => ?_, fun I truthOf hand ρ => ?_⟩
  · rw [htruth, Truth.all_eq_true_iff, List.forall_mem_map]
  · have hboth : ∀ left right, truthOf (I.eval ρ (both left right)) =
        (truthOf (I.eval ρ left)).and (truthOf (I.eval ρ right)) := by
      intro left right
      rw [both, Interpretation.eval, hand]
    exact hconjoins.truth_eq_all (fun part => truthOf (I.eval ρ part)) hboth

end Sql.Expr

namespace Expr

variable {scope : Scope}

/-- What is no conjunction is not lowered to one. -/
theorem ne_both_of_lower {e : Expr} {e' : Sql.Expr} (h : e.lower scope = .ok e')
    (hne : ∀ left right, e ≠ both left right) : ∀ left right, e' ≠ Sql.Expr.both left right := by
  rintro left' right' rfl
  cases e <;> simp only [lower, lowerWith, Sql.Expr.both, bind_eq_ok, pure_eq_ok, reduceCtorEq, and_false,
    exists_false] at h
  obtain ⟨left, -, right, -, heq⟩ := h
  cases heq
  exact hne _ _ rfl

/-- A conjunction is lowered side by side, the left side first. -/
theorem lower_both (left right : Expr) : (both left right).lower scope = (do
    let left' ← left.lower scope
    let right' ← right.lower scope
    return Sql.Expr.both left' right') := by
  rw [both, lower, lowerWith]
  rfl

/-- The conjuncts are lowered to the conjuncts of the lowered condition, or fail as its lowering does. -/
theorem mapM_lower_conjuncts (e : Expr) :
    e.conjuncts.mapM (lower scope) = (e.lower scope).map Sql.Expr.conjuncts := by
  induction e using conjuncts.induct with
  | case1 left right ihl ihr =>
    show (left.conjuncts ++ right.conjuncts).mapM (lower scope) =
      ((both left right).lower scope).map Sql.Expr.conjuncts
    rw [List.mapM_append, ihl, ihr, lower_both]
    cases left.lower scope with
    | error fault => rfl
    | ok left' => cases right.lower scope <;> rfl
  | case2 e h =>
    rw [conjuncts_of_ne h, List.mapM_cons, List.mapM_nil]
    cases hlower : e.lower scope with
    | error fault => rfl
    | ok e' =>
      have hconjuncts : e'.conjuncts = [e'] := Sql.Expr.conjuncts_of_ne (ne_both_of_lower hlower h)
      rw [Except.map, hconjuncts]
      rfl

end Expr

/-- A join is on the conjuncts of its lowered condition. -/
theorem Join.resolve_eq {scope : Scope} {j : Join} {position : Nat} {source : Sql.Source}
    (h : scope.joinSource position = .ok source) : j.resolve scope position =
      (j.on.lower scope).map fun condition => ⟨j.joinType.kind, source, condition.conjuncts⟩ := by
  rw [resolve, h, Expr.mapM_lower_conjuncts]
  cases j.on.lower scope <;> rfl

/-- A join is on the conjuncts of its condition, from left to right, however its conjunctions are nested. They are
lowered exactly if the condition is, to the conjuncts of the lowered condition, and otherwise fail with the same
error; and together they mean what the lowered condition means. -/
theorem joins_keep_conditions (scope : Scope) (j : Join) :
    SplitsInto Expr.both j.on j.on.conjuncts ∧
      j.on.conjuncts.mapM (Expr.lower scope) = (j.on.lower scope).map Sql.Expr.conjuncts ∧
      (∀ position source, scope.joinSource position = .ok source → j.resolve scope position =
        (j.on.lower scope).map fun condition => ⟨j.joinType.kind, source, condition.conjuncts⟩) ∧
      ∀ condition, j.on.lower scope = .ok condition →
        SplitsInto Sql.Expr.both condition condition.conjuncts ∧
          Sql.Expr.MeansAll.{u} condition condition.conjuncts :=
  ⟨j.on.splitsInto_conjuncts, Expr.mapM_lower_conjuncts j.on, fun _ _ => Join.resolve_eq,
    fun condition _ => ⟨condition.splitsInto_conjuncts, condition.meansAll_conjuncts⟩⟩

/-- Visits joined to the page that they began on, of their site and in their language, or in any. -/
def Join.entryPages : Join where
  table := "pages"
  on := .binary .and
    (.binary .and (.binary .eq (.column none "entry_id") (.column (some "pages") "id"))
      (.binary .eq (.column none "site_id") (.column (some "pages") "site_id")))
    (.binary .or (.binary .eq (.column none "language") (.column (some "pages") "language"))
      (.binary .eq (.column (some "pages") "language") (.literal (.ofValue (.text "any")))))
  joinType := .left

/-- The pages are joined on three conditions, which together mean what is stated of them; where no pages are
joined, their table is reported. -/
theorem joins_keep_conditions_entryPages :
    (∃ condition, Join.entryPages.on.lower ⟨"visits", ["pages"]⟩ = .ok condition ∧
      Join.entryPages.resolve ⟨"visits", ["pages"]⟩ 0 =
        .ok ⟨.left, .table "pages" (some "t1"), condition.conjuncts⟩ ∧
      condition.conjuncts.length = 3 ∧ Sql.Expr.MeansAll.{0} condition condition.conjuncts) ∧
    Join.entryPages.on.conjuncts.mapM (Expr.lower ⟨"visits", []⟩) = .error (.unknownTable "pages") := by
  obtain ⟨-, -, hresolve, hmeans⟩ := joins_keep_conditions ⟨"visits", ["pages"]⟩ Join.entryPages
  obtain ⟨-, hfails, -⟩ := joins_keep_conditions.{0} ⟨"visits", []⟩ Join.entryPages
  refine ⟨⟨_, rfl, hresolve 0 _ rfl, rfl, (hmeans _ rfl).2⟩, hfails⟩

end CubeSql
