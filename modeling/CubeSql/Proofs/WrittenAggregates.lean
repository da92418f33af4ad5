import CubeSql.Proofs.Lowering
import CubeSql.Sql.Text

/-!
# Written aggregates

A call with a wrong number of arguments has no value, and nothing is written of its arguments. All other
parts of an expression stand in its text: an aggregate that is written in an expression is written in every
expression around it, and in the text of a lowered expression where all calls fit.
-/

namespace CubeSql

/-! ## Calls -/

/-- Whether a call with so many arguments has a value. -/
def Function.takes : Function → Nat → Bool
  | .dateTrunc _, count => count == 1
  | .cast _, count => count == 1
  | .nullIf, count => count == 2
  | _, _ => true

namespace Expr

mutual

/-- Whether every call in the expression has as many arguments as its function takes. -/
def callsFit : Expr → Bool
  | .column _ _ => true
  | .literal _ => true
  | .call f args => f.takes args.length && allCallsFit args
  | .aggregate _ arg => callsFit arg
  | .case branches otherwise => branchCallsFit branches && callsFit otherwise
  | .binary _ left right => callsFit left && callsFit right

/-- Whether every call in several expressions has. -/
def allCallsFit : List Expr → Bool
  | [] => true
  | e :: es => callsFit e && allCallsFit es

/-- Whether every call in several branches has. -/
def branchCallsFit : List (Expr × Expr) → Bool
  | [] => true
  | (condition, result) :: branches => callsFit condition && callsFit result && branchCallsFit branches

end

end Expr

namespace Sql

/-- A call of as many arguments as its function takes is written around all of them. -/
theorem Dialect.exists_call_frame (d : Dialect) {f : Function} {args : List String}
    (h : f.takes args.length = true) :
    ∃ before after, d.spelling.call f args = before ++ ", ".intercalate args ++ after := by
  cases f with
  | lower => exact ⟨"lower(", ")", rfl⟩
  | upper => exact ⟨"upper(", ")", rfl⟩
  | coalesce => exact ⟨"coalesce(", ")", rfl⟩
  | concat => exact ⟨"concat(", ")", rfl⟩
  | nullIf =>
    match args with
    | [left, right] => exact ⟨"nullif(", ")", by simp [Spelling.call, String.append_assoc]⟩
  | cast dataType =>
    match args with
    | [arg] => exact ⟨"CAST(", " AS " ++ dataType ++ ")", by simp [Spelling.call, String.append_assoc]⟩
  | dateTrunc grain =>
    match args with
    | [arg] =>
      cases d with
      | duckdb => exact ⟨_, _, rfl⟩
      | postgres => exact ⟨_, _, rfl⟩
      | bigquery => exact ⟨"DATE_TRUNC(", ", " ++ grain.keyword ++ ")", by
          simp [Spelling.call, Dialect.spelling, Spelling.bigquery, String.append_assoc]⟩

/-! ## Aggregates in a text -/

/-- An aggregate of some argument stands in a text. -/
def HasAggregate (s : Spelling) (text : String) : Prop :=
  ∃ a arg before after, text = before ++ s.aggregate a (Expr.text s arg) ++ after

namespace HasAggregate

variable {s : Spelling} {text : String}

theorem ofAggregate (a : Aggregation) (arg : Expr) : HasAggregate s (s.aggregate a (arg.text s)) :=
  ⟨a, arg, "", "", by simp⟩

theorem appendLeft (h : HasAggregate s text) (before : String) : HasAggregate s (before ++ text) := by
  obtain ⟨a, arg, head, tail, rfl⟩ := h
  exact ⟨a, arg, before ++ head, tail, by simp [String.append_assoc]⟩

theorem appendRight (h : HasAggregate s text) (after : String) : HasAggregate s (text ++ after) := by
  obtain ⟨a, arg, head, tail, rfl⟩ := h
  exact ⟨a, arg, head, tail ++ after, by simp [String.append_assoc]⟩

theorem join {texts : List String} (htext : text ∈ texts) (h : HasAggregate s text) :
    HasAggregate s (String.join texts) := by
  induction texts with
  | nil => cases htext
  | cons first texts ih =>
    rw [String.join_cons]
    rcases List.mem_cons.mp htext with rfl | htext
    · exact h.appendRight _
    · exact (ih htext).appendLeft first

theorem intercalate {texts : List String} (separator : String) (htext : text ∈ texts)
    (h : HasAggregate s text) : HasAggregate s (separator.intercalate texts) := by
  match texts with
  | [only] =>
    cases List.mem_singleton.mp htext
    exact h
  | first :: second :: texts =>
    rw [String.intercalate_cons_cons]
    rcases List.mem_cons.mp htext with rfl | htext
    · exact (h.appendRight separator).appendRight _
    · exact (h.intercalate separator htext).appendLeft _

/-- A call of as many arguments as its function takes is written with all of them. -/
theorem call {d : Dialect} {f : Function} {args : List String} (htakes : f.takes args.length = true)
    (htext : text ∈ args) (h : HasAggregate d.spelling text) :
    HasAggregate d.spelling (d.spelling.call f args) := by
  obtain ⟨before, after, hframe⟩ := d.exists_call_frame htakes
  rw [hframe]
  exact ((h.intercalate ", " htext).appendLeft before).appendRight after

end HasAggregate

namespace Expr

mutual

/-- Whether an aggregate is written of the expression. Nothing is written of the arguments of a call with a
wrong number of them. -/
def writesAggregate : Expr → Bool
  | .column _ _ => false
  | .literal _ => false
  | .call f args => f.takes args.length && anyWritesAggregate args
  | .case branches otherwise => anyBranchWritesAggregate branches || writesAggregate otherwise
  | .binary _ left right => writesAggregate left || writesAggregate right
  | .aggregate _ _ => true
  | .inList subject items _ => writesAggregate subject || anyWritesAggregate items
  | .between subject low high => writesAggregate subject || writesAggregate low || writesAggregate high
  | .isNull subject _ => writesAggregate subject
  | .interval _ _ => false

/-- Whether an aggregate is written of one of several expressions. -/
def anyWritesAggregate : List Expr → Bool
  | [] => false
  | e :: es => writesAggregate e || anyWritesAggregate es

/-- Whether an aggregate is written of one of several branches. -/
def anyBranchWritesAggregate : List (Expr × Expr) → Bool
  | [] => false
  | (condition, result) :: branches =>
    writesAggregate condition || writesAggregate result || anyBranchWritesAggregate branches

end

theorem length_texts (s : Spelling) (es : List Expr) : (texts s es).length = es.length := by
  induction es with
  | nil => rfl
  | cons e es ih => rw [texts, List.length_cons, ih, List.length_cons]

variable {d : Dialect}

mutual

/-- An aggregate that is written stands in the text. -/
theorem hasAggregate_text :
    ∀ {e : Expr}, e.writesAggregate = true → HasAggregate d.spelling (e.text d.spelling)
  | .column _ _, h => by cases h
  | .literal _, h => by cases h
  | .interval _ _, h => by cases h
  | .aggregate a arg, _ => by
    rw [text]
    exact .ofAggregate a arg
  | .call f args, h => by
    obtain ⟨htakes, hargs⟩ := Bool.and_eq_true_iff.mp h
    obtain ⟨arg, harg, htext⟩ := hasAggregate_texts hargs
    rw [← length_texts d.spelling] at htakes
    rw [text]
    exact htext.call htakes harg
  | .case branches otherwise, h => by
    rw [text]
    rcases Bool.or_eq_true_iff.mp h with h | h
    · obtain ⟨branch, hbranch, htext⟩ := hasAggregate_branchTexts h
      exact ((((htext.join hbranch).appendLeft _).appendRight _).appendRight _).appendRight _
    · exact ((hasAggregate_text h).appendLeft _).appendRight _
  | .binary op left right, h => by
    rw [text]
    rcases Bool.or_eq_true_iff.mp h with h | h
    · have hleft := hasAggregate_text h
      split_ifs
      · exact (hleft.appendRight _).appendRight _
      · exact (((((hleft.appendLeft _).appendRight _).appendRight _).appendRight _).appendRight _).appendRight _
    · have hright := hasAggregate_text h
      split_ifs
      · exact hright.appendLeft _
      · exact (hright.appendLeft _).appendRight _
  | .inList subject items negated, h => by
    rw [text]
    rcases Bool.or_eq_true_iff.mp h with h | h
    · exact (((hasAggregate_text h).appendRight _).appendRight _).appendRight _
    · obtain ⟨item, hitem, htext⟩ := hasAggregate_texts h
      exact ((htext.intercalate _ hitem).appendLeft _).appendRight _
  | .between subject low high, h => by
    rw [text]
    obtain hsubject | h := Bool.or_eq_true_iff.mp h
    · rcases Bool.or_eq_true_iff.mp hsubject with h | h
      · exact ((((hasAggregate_text h).appendRight _).appendRight _).appendRight _).appendRight _
      · exact (((hasAggregate_text h).appendLeft _).appendRight _).appendRight _
    · exact (hasAggregate_text h).appendLeft _
  | .isNull subject negated, h => by
    rw [text]
    have hsubject := hasAggregate_text (e := subject) h
    exact hsubject.appendRight _

theorem hasAggregate_texts : ∀ {es : List Expr}, anyWritesAggregate es = true →
    ∃ text ∈ texts d.spelling es, HasAggregate d.spelling text
  | [], h => by cases h
  | e :: es, h => by
    rw [texts]
    rcases Bool.or_eq_true_iff.mp h with h | h
    · exact ⟨_, List.mem_cons_self, hasAggregate_text h⟩
    · obtain ⟨text, htext, hhas⟩ := hasAggregate_texts h
      exact ⟨text, List.mem_cons_of_mem _ htext, hhas⟩

theorem hasAggregate_branchTexts : ∀ {bs : List (Expr × Expr)}, anyBranchWritesAggregate bs = true →
    ∃ text ∈ branchTexts d.spelling bs, HasAggregate d.spelling text
  | [], h => by cases h
  | (condition, result) :: bs, h => by
    rw [branchTexts]
    rcases Bool.or_eq_true_iff.mp h with h | h
    · refine ⟨_, List.mem_cons_self, ?_⟩
      rcases Bool.or_eq_true_iff.mp h with h | h
      · exact (((hasAggregate_text h).appendLeft _).appendRight _).appendRight _
      · exact (hasAggregate_text h).appendLeft _
    · obtain ⟨text, htext, hhas⟩ := hasAggregate_branchTexts h
      exact ⟨text, List.mem_cons_of_mem _ htext, hhas⟩

end

end Expr

end Sql

namespace Expr

variable {qualify : Option String → Except Error (Option String)}

theorem length_of_lowerAllWith {es : List Expr} {es' : List Sql.Expr}
    (h : lowerAllWith qualify es = .ok es') : es'.length = es.length :=
  (forall₂_of_lowerAllWith h).length_eq.symm

mutual

/-- Where all calls fit, the aggregates of an expression are written. -/
theorem writesAggregate_of_lowerWith : ∀ {e : Expr} {e' : Sql.Expr}, e.lowerWith qualify = .ok e' →
    e.callsFit = true → e.isAggregate = true → e'.writesAggregate = true
  | .column table name, e', _, _, hagg => by cases hagg
  | .literal l, e', _, _, hagg => by cases hagg
  | .aggregate a arg, e', h, _, _ => by
    simp only [lowerWith, bind_eq_ok, pure_eq_ok] at h
    obtain ⟨arg', -, rfl⟩ := h
    rfl
  | .call f args, e', h, hfit, hagg => by
    simp only [lowerWith, bind_eq_ok, pure_eq_ok] at h
    obtain ⟨args', hargs, rfl⟩ := h
    obtain ⟨htakes, hfit⟩ := Bool.and_eq_true_iff.mp hfit
    rw [← length_of_lowerAllWith hargs] at htakes
    exact Bool.and_eq_true_iff.mpr ⟨htakes, anyWritesAggregate_of_lowerAllWith hargs hfit hagg⟩
  | .case branches otherwise, e', h, hfit, hagg => by
    simp only [lowerWith, bind_eq_ok, pure_eq_ok] at h
    obtain ⟨branches', hb, otherwise', ho, rfl⟩ := h
    obtain ⟨hfitb, hfito⟩ := Bool.and_eq_true_iff.mp hfit
    exact Bool.or_eq_true_iff.mpr ((Bool.or_eq_true_iff.mp hagg).imp
      (anyBranchWritesAggregate_of_lowerBranchesWith hb hfitb)
      (writesAggregate_of_lowerWith ho hfito))
  | .binary op left right, e', h, hfit, hagg => by
    simp only [lowerWith, bind_eq_ok, pure_eq_ok] at h
    obtain ⟨left', hl, right', hr, rfl⟩ := h
    obtain ⟨hfitl, hfitr⟩ := Bool.and_eq_true_iff.mp hfit
    exact Bool.or_eq_true_iff.mpr ((Bool.or_eq_true_iff.mp hagg).imp
      (writesAggregate_of_lowerWith hl hfitl) (writesAggregate_of_lowerWith hr hfitr))

theorem anyWritesAggregate_of_lowerAllWith : ∀ {es : List Expr} {es' : List Sql.Expr},
    lowerAllWith qualify es = .ok es' → allCallsFit es = true → anyAggregate es = true →
    Sql.Expr.anyWritesAggregate es' = true
  | [], es', _, _, hagg => by cases hagg
  | e :: es, es', h, hfit, hagg => by
    simp only [lowerAllWith, bind_eq_ok, pure_eq_ok] at h
    obtain ⟨e', he, es'', hes, rfl⟩ := h
    obtain ⟨hfit, hfits⟩ := Bool.and_eq_true_iff.mp hfit
    exact Bool.or_eq_true_iff.mpr ((Bool.or_eq_true_iff.mp hagg).imp
      (writesAggregate_of_lowerWith he hfit) (anyWritesAggregate_of_lowerAllWith hes hfits))

theorem anyBranchWritesAggregate_of_lowerBranchesWith :
    ∀ {bs : List (Expr × Expr)} {bs' : List (Sql.Expr × Sql.Expr)},
    lowerBranchesWith qualify bs = .ok bs' → branchCallsFit bs = true → anyBranchAggregate bs = true →
    Sql.Expr.anyBranchWritesAggregate bs' = true
  | [], bs', _, _, hagg => by cases hagg
  | (condition, result) :: bs, bs', h, hfit, hagg => by
    simp only [lowerBranchesWith, bind_eq_ok, pure_eq_ok] at h
    obtain ⟨condition', hc, result', hr, bs'', hbs, rfl⟩ := h
    obtain ⟨hfit, hfits⟩ := Bool.and_eq_true_iff.mp hfit
    obtain ⟨hfitc, hfitr⟩ := Bool.and_eq_true_iff.mp hfit
    have hfirst := fun h => Bool.or_eq_true_iff.mpr ((Bool.or_eq_true_iff.mp h).imp
      (writesAggregate_of_lowerWith hc hfitc) (writesAggregate_of_lowerWith hr hfitr))
    exact Bool.or_eq_true_iff.mpr ((Bool.or_eq_true_iff.mp hagg).imp hfirst
      (anyBranchWritesAggregate_of_lowerBranchesWith hbs hfits))

end

end Expr

end CubeSql
