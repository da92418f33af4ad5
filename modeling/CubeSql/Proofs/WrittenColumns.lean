import CubeSql.Proofs.Columns
import CubeSql.Proofs.WrittenAggregates

/-!
# Written columns

A call with a wrong number of arguments has no value and is written as the absent one; nothing else of an
expression is left out. The text of an expression is that of the expression in which such calls are absent values,
and every column that is then left stands in the text, each occurrence in a place of its own, from left to right.
-/

namespace CubeSql.Sql

/-! ## Parts of a text -/

/-- The parts stand in the text one behind another. -/
inductive StandIn : List String → String → Prop
  | nil (text : String) : StandIn [] text
  | cons (before part : String) {parts : List String} {after : String} (h : StandIn parts after) :
    StandIn (part :: parts) (before ++ part ++ after)

namespace StandIn

variable {parts more : List String} {text next : String}

theorem appendLeft (h : StandIn parts text) (before : String) : StandIn parts (before ++ text) := by
  cases h with
  | nil => exact .nil _
  | cons first part h =>
    have hcons := cons (before ++ first) part h
    simpa only [String.append_assoc] using hcons

theorem append (h : StandIn parts text) (hnext : StandIn more next) :
    StandIn (parts ++ more) (text ++ next) := by
  induction h with
  | nil text => exact hnext.appendLeft text
  | cons before part _ ih =>
    have hcons := cons before part ih
    simpa only [String.append_assoc, List.cons_append] using hcons

theorem appendRight (h : StandIn parts text) (after : String) : StandIn parts (text ++ after) := by
  have happend := h.append (.nil after)
  rwa [List.append_nil] at happend

theorem enclose (h : StandIn parts text) (before after : String) :
    StandIn parts (before ++ text ++ after) :=
  (h.appendLeft before).appendRight after

/-- Each of the parts stands somewhere in the text. -/
theorem exists_of_mem (h : StandIn parts text) {part : String} (hpart : part ∈ parts) :
    ∃ before after, text = before ++ part ++ after := by
  induction h with
  | nil text => cases hpart
  | cons before first h ih =>
    rcases List.mem_cons.mp hpart with rfl | hpart
    · exact ⟨before, _, rfl⟩
    · obtain ⟨front, back, rfl⟩ := ih hpart
      exact ⟨before ++ first ++ front, back, by simp only [String.append_assoc]⟩

end StandIn

/-! ## Frames -/

variable {d : Dialect}

theorem Dialect.exists_aggregate_frame (d : Dialect) (a : Aggregation) :
    ∃ before after, ∀ arg, d.spelling.aggregate a arg = before ++ arg ++ after := by
  cases a with
  | sum => exact ⟨"SUM(", ")", fun _ => rfl⟩
  | count => exact ⟨"COUNT(", ")", fun _ => rfl⟩
  | countDistinct => exact ⟨"COUNT(DISTINCT ", ")", fun _ => rfl⟩
  | min => exact ⟨"MIN(", ")", fun _ => rfl⟩
  | max => exact ⟨"MAX(", ")", fun _ => rfl⟩
  | avg => exact ⟨"AVG(", ")", fun _ => rfl⟩
  | median =>
    cases d with
    | duckdb => exact ⟨"MEDIAN(", ")", fun _ => rfl⟩
    | postgres => exact ⟨"PERCENTILE_CONT(0.5) WITHIN GROUP (ORDER BY ", ")", fun _ => rfl⟩
    | bigquery => exact ⟨"APPROX_QUANTILES(", ", 2)[OFFSET(1)]", fun _ => rfl⟩

theorem Spelling.call_of_not_takes (s : Spelling) {f : Function} {args : List String}
    (h : f.takes args.length = false) : s.call f args = "NULL" := by
  cases f with
  | lower => cases h
  | upper => cases h
  | coalesce => cases h
  | concat => cases h
  | nullIf =>
    match args with
    | [] => rfl
    | [_] => rfl
    | _ :: _ :: _ :: _ => rfl
  | cast dataType =>
    match args with
    | [] => rfl
    | _ :: _ :: _ => rfl
  | dateTrunc grain =>
    match args with
    | [] => rfl
    | _ :: _ :: _ => rfl

/-! ## Expressions -/

/-- The text of a column. -/
def ColumnRef.text (s : Spelling) (c : ColumnRef) : String := (Expr.column c.1 c.2).text s

namespace Expr

mutual

/-- Whether every call in the expression has as many arguments as its function takes. -/
def callsFit : Expr → Bool
  | .column _ _ => true
  | .literal _ => true
  | .call f args => f.takes args.length && allCallsFit args
  | .case branches otherwise => branchCallsFit branches && callsFit otherwise
  | .binary _ left right => callsFit left && callsFit right
  | .aggregate _ arg => callsFit arg
  | .inList subject items _ => callsFit subject && allCallsFit items
  | .between subject low high => callsFit subject && callsFit low && callsFit high
  | .isNull subject _ => callsFit subject
  | .interval _ _ => true

/-- Whether every call in several expressions has. -/
def allCallsFit : List Expr → Bool
  | [] => true
  | e :: es => callsFit e && allCallsFit es

/-- Whether every call in several branches has. -/
def branchCallsFit : List (Expr × Expr) → Bool
  | [] => true
  | (condition, result) :: branches => callsFit condition && callsFit result && branchCallsFit branches

end

mutual

/-- The expression with the absent value in place of every call with a wrong number of arguments. -/
def fitted : Expr → Expr
  | .column table name => .column table name
  | .literal v => .literal v
  | .call f args => if f.takes args.length then .call f (allFitted args) else .literal .null
  | .case branches otherwise => .case (branchesFitted branches) (fitted otherwise)
  | .binary op left right => .binary op (fitted left) (fitted right)
  | .aggregate a arg => .aggregate a (fitted arg)
  | .inList subject items negated => .inList (fitted subject) (allFitted items) negated
  | .between subject low high => .between (fitted subject) (fitted low) (fitted high)
  | .isNull subject negated => .isNull (fitted subject) negated
  | .interval quantity unit => .interval quantity unit

/-- Several expressions with the absent value in place of such calls. -/
def allFitted : List Expr → List Expr
  | [] => []
  | e :: es => fitted e :: allFitted es

/-- Several branches with the absent value in place of such calls. -/
def branchesFitted : List (Expr × Expr) → List (Expr × Expr)
  | [] => []
  | (condition, result) :: branches => (fitted condition, fitted result) :: branchesFitted branches

end

theorem length_allFitted (es : List Expr) : (allFitted es).length = es.length := by
  induction es with
  | nil => rfl
  | cons e es ih => rw [allFitted, List.length_cons, ih, List.length_cons]

mutual

theorem callsFit_fitted : ∀ e : Expr, e.fitted.callsFit = true
  | .column _ _ => rfl
  | .literal _ => rfl
  | .interval _ _ => rfl
  | .call f args => by
    rw [fitted]
    split_ifs with htakes
    · rw [callsFit, length_allFitted, htakes, callsFit_allFitted args, Bool.and_self]
    · rfl
  | .case branches otherwise => by
    rw [fitted, callsFit, callsFit_branchesFitted branches, callsFit_fitted otherwise, Bool.and_self]
  | .binary op left right => by
    rw [fitted, callsFit, callsFit_fitted left, callsFit_fitted right, Bool.and_self]
  | .aggregate a arg => by
    rw [fitted, callsFit, callsFit_fitted arg]
  | .inList subject items negated => by
    rw [fitted, callsFit, callsFit_fitted subject, callsFit_allFitted items, Bool.and_self]
  | .between subject low high => by
    rw [fitted, callsFit, callsFit_fitted subject, callsFit_fitted low, callsFit_fitted high, Bool.and_self,
      Bool.and_self]
  | .isNull subject negated => by
    rw [fitted, callsFit, callsFit_fitted subject]

theorem callsFit_allFitted : ∀ es : List Expr, allCallsFit (allFitted es) = true
  | [] => rfl
  | e :: es => by
    rw [allFitted, allCallsFit, callsFit_fitted e, callsFit_allFitted es, Bool.and_self]

theorem callsFit_branchesFitted : ∀ bs : List (Expr × Expr), branchCallsFit (branchesFitted bs) = true
  | [] => rfl
  | (condition, result) :: bs => by
    rw [branchesFitted, branchCallsFit, callsFit_fitted condition, callsFit_fitted result,
      callsFit_branchesFitted bs, Bool.and_self, Bool.and_self]

end

mutual

theorem fitted_of_callsFit : ∀ {e : Expr}, e.callsFit = true → e.fitted = e
  | .column _ _, _ => rfl
  | .literal _, _ => rfl
  | .interval _ _, _ => rfl
  | .call f args, h => by
    obtain ⟨htakes, hargs⟩ := Bool.and_eq_true_iff.mp h
    rw [fitted, if_pos htakes, allFitted_of_callsFit hargs]
  | .case branches otherwise, h => by
    obtain ⟨hbranches, hotherwise⟩ := Bool.and_eq_true_iff.mp h
    rw [fitted, branchesFitted_of_callsFit hbranches, fitted_of_callsFit hotherwise]
  | .binary op left right, h => by
    obtain ⟨hleft, hright⟩ := Bool.and_eq_true_iff.mp h
    rw [fitted, fitted_of_callsFit hleft, fitted_of_callsFit hright]
  | .aggregate a arg, h => by
    have harg : arg.callsFit = true := h
    rw [fitted, fitted_of_callsFit harg]
  | .inList subject items negated, h => by
    obtain ⟨hsubject, hitems⟩ := Bool.and_eq_true_iff.mp h
    rw [fitted, fitted_of_callsFit hsubject, allFitted_of_callsFit hitems]
  | .between subject low high, h => by
    obtain ⟨hrange, hhigh⟩ := Bool.and_eq_true_iff.mp h
    obtain ⟨hsubject, hlow⟩ := Bool.and_eq_true_iff.mp hrange
    rw [fitted, fitted_of_callsFit hsubject, fitted_of_callsFit hlow, fitted_of_callsFit hhigh]
  | .isNull subject negated, h => by
    have hsubject : subject.callsFit = true := h
    rw [fitted, fitted_of_callsFit hsubject]

theorem allFitted_of_callsFit : ∀ {es : List Expr}, allCallsFit es = true → allFitted es = es
  | [], _ => rfl
  | e :: es, h => by
    obtain ⟨he, hes⟩ := Bool.and_eq_true_iff.mp h
    rw [allFitted, fitted_of_callsFit he, allFitted_of_callsFit hes]

theorem branchesFitted_of_callsFit : ∀ {bs : List (Expr × Expr)}, branchCallsFit bs = true →
    branchesFitted bs = bs
  | [], _ => rfl
  | (condition, result) :: bs, h => by
    obtain ⟨hfirst, hbs⟩ := Bool.and_eq_true_iff.mp h
    obtain ⟨hcondition, hresult⟩ := Bool.and_eq_true_iff.mp hfirst
    rw [branchesFitted, fitted_of_callsFit hcondition, fitted_of_callsFit hresult,
      branchesFitted_of_callsFit hbs]

end

theorem fitted_eq_self_iff {e : Expr} : e.fitted = e ↔ e.callsFit = true := by
  constructor
  · intro h
    rw [← h]
    exact callsFit_fitted e
  · exact fitted_of_callsFit

mutual

/-- A call with a wrong number of arguments is written as the absent value is. -/
theorem text_fitted (s : Spelling) : ∀ e : Expr, e.fitted.text s = e.text s
  | .column _ _ => rfl
  | .literal _ => rfl
  | .interval _ _ => rfl
  | .call f args => by
    rw [fitted, text]
    split_ifs with htakes
    · rw [text, texts_allFitted s args]
    · rw [← length_texts s] at htakes
      rw [s.call_of_not_takes (by simpa using htakes)]
      rfl
  | .case branches otherwise => by
    rw [fitted, text, text, branchTexts_branchesFitted s branches, text_fitted s otherwise]
  | .binary op left right => by
    rw [fitted, text, text, text_fitted s left, text_fitted s right]
  | .aggregate a arg => by
    rw [fitted, text, text, text_fitted s arg]
  | .inList subject items negated => by
    rw [fitted, text, text, text_fitted s subject, texts_allFitted s items]
  | .between subject low high => by
    rw [fitted, text, text, text_fitted s subject, text_fitted s low, text_fitted s high]
  | .isNull subject negated => by
    rw [fitted, text, text, text_fitted s subject]

theorem texts_allFitted (s : Spelling) : ∀ es : List Expr, texts s (allFitted es) = texts s es
  | [] => rfl
  | e :: es => by
    rw [allFitted, texts, texts, text_fitted s e, texts_allFitted s es]

theorem branchTexts_branchesFitted (s : Spelling) : ∀ bs : List (Expr × Expr),
    branchTexts s (branchesFitted bs) = branchTexts s bs
  | [] => rfl
  | (condition, result) :: bs => by
    rw [branchesFitted, branchTexts, branchTexts, text_fitted s condition, text_fitted s result,
      branchTexts_branchesFitted s bs]

end

mutual

/-- Where all calls fit, every occurrence of a column is written in its place. -/
theorem standIn_text : ∀ {e : Expr}, e.callsFit = true →
    StandIn (e.occurrences.map (ColumnRef.text d.spelling)) (e.text d.spelling)
  | .column table name, _ => by
    have honly := StandIn.cons "" ((column table name).text d.spelling) (.nil "")
    rwa [String.empty_append, String.append_empty] at honly
  | .literal _, _ => .nil _
  | .interval _ _, _ => .nil _
  | .call f args, h => by
    obtain ⟨htakes, hargs⟩ := Bool.and_eq_true_iff.mp h
    rw [← length_texts d.spelling] at htakes
    obtain ⟨before, after, hframe⟩ := d.exists_call_frame htakes
    rw [text, hframe]
    exact (standIn_texts hargs).enclose before after
  | .case branches otherwise, h => by
    obtain ⟨hbranches, hotherwise⟩ := Bool.and_eq_true_iff.mp h
    rw [text, occurrences, List.map_append]
    have hwhens := ((standIn_branchTexts hbranches).enclose "CASE" " ELSE ")
    exact (hwhens.append (standIn_text hotherwise)).appendRight " END"
  | .binary op left right, h => by
    obtain ⟨hleft, hright⟩ := Bool.and_eq_true_iff.mp h
    have hl := standIn_text hleft
    have hr := standIn_text hright
    rw [text, occurrences, List.map_append]
    split_ifs
    · exact (hl.appendRight _).append hr
    · exact (((((hl.appendLeft "(").appendRight " ").appendRight _).appendRight " ").append hr).appendRight ")"
  | .aggregate a arg, h => by
    have harg : arg.callsFit = true := h
    obtain ⟨before, after, hframe⟩ := d.exists_aggregate_frame a
    rw [text, hframe]
    exact (standIn_text harg).enclose before after
  | .inList subject items negated, h => by
    obtain ⟨hsubject, hitems⟩ := Bool.and_eq_true_iff.mp h
    rw [text, occurrences, List.map_append]
    exact (((standIn_text hsubject).appendRight _).append (standIn_texts hitems)).appendRight ")"
  | .between subject low high, h => by
    obtain ⟨hrange, hhigh⟩ := Bool.and_eq_true_iff.mp h
    obtain ⟨hsubject, hlow⟩ := Bool.and_eq_true_iff.mp hrange
    rw [text, occurrences, List.map_append, List.map_append]
    have hfront := ((standIn_text hsubject).appendRight " BETWEEN ").append (standIn_text hlow)
    exact (hfront.appendRight " AND ").append (standIn_text hhigh)
  | .isNull subject negated, h => by
    have hsubject : subject.callsFit = true := h
    rw [text]
    exact (standIn_text hsubject).appendRight _

theorem standIn_texts : ∀ {es : List Expr}, allCallsFit es = true →
    StandIn ((occurrencesAll es).map (ColumnRef.text d.spelling)) (", ".intercalate (texts d.spelling es))
  | [], _ => .nil _
  | [e], h => by
    obtain ⟨he, -⟩ := Bool.and_eq_true_iff.mp h
    have honly := standIn_text he
    rwa [occurrencesAll, occurrencesAll, List.append_nil]
  | e :: next :: es, h => by
    obtain ⟨he, hes⟩ := Bool.and_eq_true_iff.mp h
    have hrest := standIn_texts hes
    rw [texts] at hrest
    rw [occurrencesAll, List.map_append, texts, texts, String.intercalate_cons_cons]
    exact ((standIn_text he).appendRight ", ").append hrest

theorem standIn_branchTexts : ∀ {bs : List (Expr × Expr)}, branchCallsFit bs = true →
    StandIn ((occurrencesBranches bs).map (ColumnRef.text d.spelling))
      (String.join (branchTexts d.spelling bs))
  | [], _ => .nil _
  | (condition, result) :: bs, h => by
    obtain ⟨hfirst, hbs⟩ := Bool.and_eq_true_iff.mp h
    obtain ⟨hcondition, hresult⟩ := Bool.and_eq_true_iff.mp hfirst
    rw [occurrencesBranches, List.map_append, List.map_append, branchTexts, String.join_cons]
    have hwhen := ((standIn_text hcondition).enclose " WHEN " " THEN ").append (standIn_text hresult)
    exact hwhen.append (standIn_branchTexts hbs)

end

end Expr

/-- In every dialect an expression is written as if the calls with a wrong number of arguments were absent values,
and the columns of what is left stand in its text, every occurrence in its place; so without such calls every
column that the expression reads is written. -/
theorem columns_written_unless_misfit (d : Dialect) (e : Expr) :
    e.text d.spelling = e.fitted.text d.spelling ∧
      StandIn (e.fitted.occurrences.map (ColumnRef.text d.spelling)) (e.text d.spelling) ∧
      (e.fitted = e ↔ e.callsFit = true) ∧
      (∀ c ∈ e.fitted.columns, ∃ before after,
        e.text d.spelling = before ++ c.text d.spelling ++ after) ∧
      (e.callsFit = true → ∀ c ∈ e.columns, ∃ before after,
        e.text d.spelling = before ++ c.text d.spelling ++ after) := by
  have hstand : StandIn (e.fitted.occurrences.map (ColumnRef.text d.spelling)) (e.text d.spelling) := by
    rw [← Expr.text_fitted]
    exact Expr.standIn_text e.callsFit_fitted
  have hwritten : ∀ c ∈ e.fitted.columns, ∃ before after,
      e.text d.spelling = before ++ c.text d.spelling ++ after := by
    intro c hc
    exact hstand.exists_of_mem (List.mem_map_of_mem (Expr.mem_columns_iff.mp hc))
  refine ⟨(Expr.text_fitted _ e).symm, hstand, Expr.fitted_eq_self_iff, hwritten, fun hfit => ?_⟩
  rwa [Expr.fitted_of_callsFit hfit] at hwritten

/-- What is paid, in a call that takes a second argument. -/
def Expr.nullIfPaid : Expr := .call .nullIf [.column none "paid"]

/-- What is paid, in such a call, or else what is due. -/
def Expr.paidOrDue : Expr := .call .coalesce [nullIfPaid, .column (some "t1") "due"]

/-- What is due is written although what is paid is not, and both are where the call has its second argument. -/
theorem columns_written_unless_misfit_bills :
    (∃ before after, Expr.paidOrDue.text Dialect.bigquery.spelling =
      before ++ ColumnRef.text Dialect.bigquery.spelling (some "t1", "due") ++ after) ∧
    (Expr.call .nullIf [.column none "paid", .column none "due"]).callsFit = true ∧
    ∃ before after, (Expr.call .nullIf [.column none "paid", .column none "due"]).text
      Dialect.postgres.spelling = before ++ ColumnRef.text Dialect.postgres.spelling (none, "paid") ++ after :=
  ⟨(columns_written_unless_misfit .bigquery Expr.paidOrDue).2.2.2.1 (some "t1", "due") (by decide), by decide,
    (columns_written_unless_misfit .postgres _).2.2.2.2 (by decide) (none, "paid") (by decide)⟩

/-- A call of one argument that takes two is written without the column in it. -/
theorem paid_not_written_nullIfPaid :
    (none, "paid") ∈ Expr.nullIfPaid.columns ∧
      ¬ ∃ before after, Expr.nullIfPaid.text Dialect.duckdb.spelling =
        before ++ ColumnRef.text Dialect.duckdb.spelling (none, "paid") ++ after := by
  refine ⟨by decide, ?_⟩
  rintro ⟨before, after, h⟩
  have hquote : nameQuote ∈ (ColumnRef.text Dialect.duckdb.spelling (none, "paid")).toList := by decide
  have hwritten : nameQuote ∈ (Expr.nullIfPaid.text Dialect.duckdb.spelling).toList := by
    rw [h, String.toList_append, String.toList_append]
    exact List.mem_append_left _ (List.mem_append_right _ hquote)
  exact absurd hwritten (by decide)

end CubeSql.Sql
