import CubeSql.Proofs.Lowering
import CubeSql.Proofs.Quotations
import CubeSql.Sql.Text

/-!
# The grouping of operators in a text

An expression of columns and operators can be read off its text in DuckDB and PostgreSQL but for one thing: a
comparison stands without parentheses, so that a row of comparisons has one text however it is grouped. Two
such expressions have the same text exactly if they are the same once every row of comparisons is grouped from
the right, and are the same expression if in one of them no comparison is compared.
-/

namespace CubeSql

/-- The expression is built from columns and operators only. -/
inductive Expr.IsOperation : Expr → Prop
  | column (table : Option String) (name : String) : IsOperation (.column table name)
  | binary (op : BinaryOp) {left right : Expr} (hleft : IsOperation left) (hright : IsOperation right) :
    IsOperation (.binary op left right)

namespace Sql

theorem Operator.symbol_injective : Function.Injective Operator.symbol := by
  rintro (op | _) (op' | _) h
  · cases op <;> cases op' <;> simp_all [symbol]
  · cases op <;> simp [symbol] at h
  · cases op' <;> simp [symbol] at h
  · rfl

namespace Expr

/-- The expression is built from columns and operators only. -/
inductive IsOperation : Expr → Prop
  | column (table : Option String) (name : String) : IsOperation (.column table name)
  | binary (op : Operator) {left right : Expr} (hleft : IsOperation left) (hright : IsOperation right) :
    IsOperation (.binary op left right)

/-! ## Rows of comparisons -/

/-- Whether the expression is a comparison. -/
def isComparison : Expr → Bool
  | .binary op _ _ => op.isComparison
  | _ => false

/-- Whether a comparison is compared anywhere between the columns and operators of the expression. -/
def comparesComparison : Expr → Bool
  | .binary op left right =>
    (op.isComparison && (left.isComparison || right.isComparison)) ||
      left.comparesComparison || right.comparesComparison
  | _ => false

/-- An operator behind the row of comparisons that an expression is: the last of the row is its left side. -/
def compareLast (op : Operator) (right : Expr) : Expr → Expr
  | .binary o first rest =>
    if o.isComparison then .binary o first (compareLast op right rest)
    else .binary op (.binary o first rest) right
  | left => .binary op left right

/-- The expression with every row of comparisons grouped from the right: `(a < b) = c` as `a < (b = c)`. -/
def regrouped : Expr → Expr
  | .binary op left right =>
    if op.isComparison then compareLast op right.regrouped left.regrouped
    else .binary op left.regrouped right.regrouped
  | e => e

/-- An expression of columns and operators in which no comparison is the left side of a comparison. -/
inductive RightGrouped : Expr → Prop
  | column (table : Option String) (name : String) : RightGrouped (.column table name)
  | binary {op : Operator} {left right : Expr} (h : op.isComparison = true → left.isComparison = false)
    (hleft : RightGrouped left) (hright : RightGrouped right) : RightGrouped (.binary op left right)

theorem RightGrouped.compareLast {left right : Expr} (hleft : RightGrouped left)
    (hright : RightGrouped right) (op : Operator) : RightGrouped (compareLast op right left) := by
  induction hleft with
  | column table name => exact .binary (fun _ => rfl) (.column table name) hright
  | @binary o first rest h hfirst hrest _ ih =>
    rw [Expr.compareLast]
    split_ifs with ho
    · exact .binary h hfirst ih
    · have hne : (Expr.binary o first rest).isComparison = false := by simpa [isComparison] using ho
      exact .binary (fun _ => hne) (.binary h hfirst hrest) hright

theorem rightGrouped_regrouped {e : Expr} (h : e.IsOperation) : e.regrouped.RightGrouped := by
  induction h with
  | column table name => exact .column table name
  | binary op hleft hright ihleft ihright =>
    rw [regrouped]
    split_ifs with hop
    · exact ihleft.compareLast ihright op
    · exact .binary (fun h => absurd h hop) ihleft ihright

theorem text_compareLast (s : Spelling) {op : Operator} (hop : op.isComparison = true) {left : Expr}
    (hleft : RightGrouped left) (right : Expr) :
    (compareLast op right left).text s = left.text s ++ op.symbol ++ right.text s := by
  induction hleft with
  | column table name =>
    rw [compareLast, text, if_pos hop]
    exact fun _ _ _ => nofun
  | @binary o first rest h hfirst hrest _ ih =>
    rw [compareLast]
    split_ifs with ho
    · rw [text, if_pos ho, ih, text, if_pos ho]
      simp only [String.append_assoc]
    · rw [text, if_pos hop]

theorem text_regrouped (s : Spelling) {e : Expr} (h : e.IsOperation) :
    e.regrouped.text s = e.text s := by
  induction h with
  | column table name => rfl
  | binary op hleft hright ihleft ihright =>
    rw [regrouped]
    split_ifs with hop
    · rw [text_compareLast s hop (rightGrouped_regrouped hleft), text, if_pos hop, ihleft, ihright]
    · rw [text, if_neg hop, ihleft, ihright, text, if_neg hop]

theorem compareLast_of_not {op : Operator} {left right : Expr} (h : left.isComparison = false) :
    compareLast op right left = .binary op left right := by
  cases left with
  | binary o first rest =>
    have ho : ¬ o.isComparison = true := by simpa [isComparison] using h
    rw [compareLast, if_neg ho]
  | _ => rfl

theorem isComparison_compareLast {op : Operator} (hop : op.isComparison = true) (left right : Expr) :
    (compareLast op right left).isComparison = true := by
  by_cases hleft : left.isComparison = true
  · cases left with
    | binary o first rest =>
      have ho : o.isComparison = true := hleft
      rw [compareLast, if_pos ho]
      exact ho
    | _ => cases hleft
  · rw [compareLast_of_not (by simpa using hleft)]
    exact hop

theorem isComparison_regrouped {e : Expr} (h : e.IsOperation) :
    e.regrouped.isComparison = e.isComparison := by
  cases h with
  | column table name => rfl
  | binary op hleft hright =>
    rw [regrouped]
    split_ifs with hop
    · rw [isComparison_compareLast hop]
      exact hop.symm
    · rfl

theorem comparesComparison_compareLast {op : Operator} (hop : op.isComparison = true) (left right : Expr) :
    (compareLast op right left).comparesComparison =
      (Expr.binary op left right).comparesComparison := by
  by_cases hleft : left.isComparison = true
  · cases left with
    | binary o first rest =>
      have ho : o.isComparison = true := hleft
      have hrest := isComparison_compareLast hop rest right
      rw [compareLast, if_pos ho, comparesComparison, comparesComparison, ho, hrest, hop, hleft]
      simp
    | _ => cases hleft
  · rw [compareLast_of_not (by simpa using hleft)]

/-- Regrouping keeps that a comparison is compared. -/
theorem comparesComparison_regrouped {e : Expr} (h : e.IsOperation) :
    e.regrouped.comparesComparison = e.comparesComparison := by
  induction h with
  | column table name => rfl
  | binary op hleft hright ihleft ihright =>
    have hparts : ∀ l r : Expr, (Expr.binary op l r).comparesComparison =
        ((op.isComparison && (l.isComparison || r.isComparison)) || l.comparesComparison ||
          r.comparesComparison) := fun _ _ => rfl
    rw [regrouped]
    split_ifs with hop
    · rw [comparesComparison_compareLast hop, hparts, hparts, isComparison_regrouped hleft,
        isComparison_regrouped hright, ihleft, ihright]
    · rw [hparts, hparts, isComparison_regrouped hleft, isComparison_regrouped hright, ihleft, ihright]

theorem regrouped_eq_self {e : Expr} (h : e.IsOperation) (hno : e.comparesComparison = false) :
    e.regrouped = e := by
  induction h with
  | column table name => rfl
  | @binary op left right hleft hright ihleft ihright =>
    simp only [comparesComparison, Bool.or_eq_false_iff, Bool.and_eq_false_iff] at hno
    obtain ⟨⟨houter, hnoleft⟩, hnoright⟩ := hno
    rw [regrouped, ihleft hnoleft, ihright hnoright]
    split_ifs with hop
    · have hcompared := houter.resolve_left (by simp [hop])
      exact compareLast_of_not hcompared.1
    · rfl

/-! ## Reading a text -/

theorem takeWhile_append_eq {p : Char → Bool} {l rest : List Char} (hl : ∀ c ∈ l, p c = true)
    (hrest : ∀ c ∈ rest.head?, p c = false) : (l ++ rest).takeWhile p = l := by
  rw [List.takeWhile_append_of_pos hl]
  cases rest with
  | nil => rw [List.takeWhile_nil, List.append_nil]
  | cons c rest =>
    have hc : ¬ p c = true := by simp [hrest c rfl]
    rw [List.takeWhile_cons_of_neg hc, List.append_nil]

theorem eq_of_append_eq {p : Char → Bool} {a b x y : List Char} (ha : ∀ c ∈ a, p c = true)
    (hb : ∀ c ∈ b, p c = true) (hx : ∀ c ∈ x.head?, p c = false) (hy : ∀ c ∈ y.head?, p c = false)
    (h : a ++ x = b ++ y) : a = b ∧ x = y := by
  have hab : a = b := by rw [← takeWhile_append_eq ha hx, ← takeWhile_append_eq hb hy, h]
  subst hab
  exact ⟨rfl, List.append_cancel_left h⟩

/-- The characters of which the symbols of comparisons are made. -/
def isComparing (c : Char) : Bool := c = '=' || c = '<' || c = '>'

theorem isComparing_of_mem_symbol {op : Operator} (h : op.isComparison = true) :
    ∀ c ∈ op.symbol.toList, isComparing c = true := by
  have hall : op.symbol.toList.all isComparing = true := by
    cases op with
    | like => cases h
    | of op => cases op <;> first | rfl | cases h
  exact List.all_eq_true.mp hall

theorem toList_symbol_ne_nil (op : Operator) : op.symbol.toList ≠ [] := by
  cases op with
  | like => decide
  | of op => cases op <;> decide

theorem ne_blank_of_mem_symbol (op : Operator) : ∀ c ∈ op.symbol.toList, (c != ' ') = true := by
  have hall : op.symbol.toList.all (· != ' ') = true := by
    cases op with
    | like => rfl
    | of op => cases op <;> rfl
  exact List.all_eq_true.mp hall

/-- What may follow an operand: neither another quote nor the point behind a qualifier. -/
def FollowsOperand (rest : List Char) : Prop := ∀ c ∈ rest.head?, c ≠ nameQuote ∧ c ≠ '.'

/-- What may follow an expression: nothing, or the blank or parenthesis of the operator around it. -/
def FollowsExpr (rest : List Char) : Prop := ∀ c ∈ rest.head?, c = ' ' ∨ c = ')'

theorem followsExpr_nil : FollowsExpr [] := by
  intro c hc
  cases hc

theorem FollowsExpr.followsOperand {rest : List Char} (h : FollowsExpr rest) : FollowsOperand rest := by
  intro c hc
  rcases h c hc with rfl | rfl <;> decide

theorem followsOperand_symbol {op : Operator} (h : op.isComparison = true) (rest : List Char) :
    FollowsOperand (op.symbol.toList ++ rest) := by
  intro c hc
  rw [List.head?_append_of_ne_nil _ (toList_symbol_ne_nil op)] at hc
  have hcomparing := isComparing_of_mem_symbol h c (List.mem_of_mem_head? hc)
  constructor <;> rintro rfl <;> cases hcomparing

/-- Behind an expression no comparison goes on. -/
theorem FollowsExpr.ne_symbol {r : List Char} (hr : FollowsExpr r) {op : Operator}
    (h : op.isComparison = true) (rest : List Char) : r ≠ op.symbol.toList ++ rest := by
  rintro rfl
  obtain ⟨c, cs, hsymbol⟩ := List.exists_cons_of_ne_nil (toList_symbol_ne_nil op)
  have hc : isComparing c = true :=
    isComparing_of_mem_symbol h c (by rw [hsymbol]; exact List.mem_cons_self)
  have hend := hr c (by rw [hsymbol]; rfl)
  rcases hend with rfl | rfl <;> cases hc

variable {d : Dialect}

theorem eq_of_quoteName_append_eq (hd : d ≠ .bigquery) {n n' : String} {r r' : List Char}
    (hr : ∀ c ∈ r.head?, c ≠ nameQuote) (hr' : ∀ c ∈ r'.head?, c ≠ nameQuote)
    (h : (d.spelling.quoteName n).toList ++ r = (d.spelling.quoteName n').toList ++ r') :
    n = n' ∧ r = r' := by
  have hread := Dialect.readName_quoteName hd n hr
  rw [h, Dialect.readName_quoteName hd n' hr'] at hread
  obtain ⟨hname, hrest⟩ := Prod.mk.inj (Option.some.inj hread)
  exact ⟨(String.toList_inj.mp hname).symm, hrest.symm⟩

theorem toList_column (table : Option String) (name : String) (r : List Char) :
    ((column table name).text d.spelling).toList ++ r =
      match table with
      | none => (d.spelling.quoteName name).toList ++ r
      | some table =>
        (d.spelling.quoteName table).toList ++ '.' :: ((d.spelling.quoteName name).toList ++ r) := by
  cases table <;> simp [text]

theorem toList_group {op : Operator} (h : op.isComparison = false) (left right : Expr) (r : List Char) :
    ((binary op left right).text d.spelling).toList ++ r =
      '(' :: ((left.text d.spelling).toList ++ ' ' :: (op.symbol.toList ++
        ' ' :: ((right.text d.spelling).toList ++ ')' :: r))) := by
  simp [text, h]

theorem toList_comparison {op : Operator} (h : op.isComparison = true) (left right : Expr)
    (r : List Char) :
    ((binary op left right).text d.spelling).toList ++ r =
      (left.text d.spelling).toList ++ (op.symbol.toList ++ ((right.text d.spelling).toList ++ r)) := by
  simp [text, h]

/-- The text of an operand, with what follows it, determines both. -/
def ReadsAsOperand (d : Dialect) (a : Expr) : Prop :=
  ∀ ⦃b : Expr⦄ ⦃r r' : List Char⦄, b.RightGrouped → b.isComparison = false →
    FollowsOperand r → FollowsOperand r' →
    (a.text d.spelling).toList ++ r = (b.text d.spelling).toList ++ r' → a = b ∧ r = r'

/-- The text of an expression, with what follows it, determines both. -/
def ReadsAsExpr (d : Dialect) (a : Expr) : Prop :=
  ∀ ⦃b : Expr⦄ ⦃r r' : List Char⦄, b.RightGrouped → FollowsExpr r → FollowsExpr r' →
    (a.text d.spelling).toList ++ r = (b.text d.spelling).toList ++ r' → a = b ∧ r = r'

theorem head_column (hd : d ≠ .bigquery) (table : Option String) (name : String) :
    ∃ cs, ((column table name).text d.spelling).toList = nameQuote :: cs := by
  have hquoted : ∀ n, ∃ cs, (d.spelling.quoteName n).toList = nameQuote :: cs := by
    intro n
    cases d with
    | duckdb => exact ⟨_, toList_quoted _ _ _⟩
    | postgres => exact ⟨_, toList_quoted _ _ _⟩
    | bigquery => exact absurd rfl hd
  cases table with
  | none => exact hquoted name
  | some table =>
    obtain ⟨cs, hcs⟩ := hquoted table
    simp [text, hcs]

theorem head_text (hd : d ≠ .bigquery) {e : Expr} (h : e.RightGrouped) :
    ∃ c cs, (e.text d.spelling).toList = c :: cs ∧ isComparing c = false := by
  induction h with
  | column table name =>
    obtain ⟨cs, hcs⟩ := head_column hd table name
    exact ⟨_, cs, hcs, by decide⟩
  | @binary op left right _ _ _ ih _ =>
    by_cases hop : op.isComparison = true
    · obtain ⟨c, cs, hcs, hc⟩ := ih
      have htext := toList_comparison (d := d) hop left right []
      rw [List.append_nil, hcs] at htext
      exact ⟨c, _, htext, hc⟩
    · have htext := toList_group (d := d) (by simpa using hop) left right []
      rw [List.append_nil] at htext
      exact ⟨'(', _, htext, by decide⟩

theorem readsAsOperand_column (hd : d ≠ .bigquery) (table : Option String) (name : String) :
    ReadsAsOperand d (column table name) := by
  intro b r r' hb hoperand hr hr' h
  cases hb with
  | binary _ _ _ =>
    obtain ⟨cs, hcs⟩ := head_column hd table name
    rw [toList_group hoperand, hcs] at h
    exact absurd (List.cons.inj h).1 (by decide)
  | column table' name' =>
    have hpoint : ∀ rest : List Char, ∀ c ∈ ('.' :: rest).head?, c ≠ nameQuote := by
      rintro rest c ⟨⟩
      decide
    rw [toList_column, toList_column] at h
    cases table with
    | none =>
      cases table' with
      | none =>
        obtain ⟨rfl, rfl⟩ := eq_of_quoteName_append_eq hd (fun c hc => (hr c hc).1)
          (fun c hc => (hr' c hc).1) h
        exact ⟨rfl, rfl⟩
      | some table' =>
        obtain ⟨-, rfl⟩ := eq_of_quoteName_append_eq hd (fun c hc => (hr c hc).1) (hpoint _) h
        have hnoPoint := hr '.' rfl
        exact absurd rfl hnoPoint.2
    | some table =>
      cases table' with
      | none =>
        obtain ⟨-, rfl⟩ := eq_of_quoteName_append_eq hd (hpoint _) (fun c hc => (hr' c hc).1) h
        have hnoPoint := hr' '.' rfl
        exact absurd rfl hnoPoint.2
      | some table' =>
        obtain ⟨rfl, hrest⟩ := eq_of_quoteName_append_eq hd (hpoint _) (hpoint _) h
        obtain ⟨rfl, rfl⟩ := eq_of_quoteName_append_eq hd (fun c hc => (hr c hc).1)
          (fun c hc => (hr' c hc).1) (List.cons.inj hrest).2
        exact ⟨rfl, rfl⟩

theorem readsAsOperand_group (hd : d ≠ .bigquery) {op : Operator} (hop : op.isComparison = false)
    {left right : Expr} (hleft : ReadsAsExpr d left) (hright : ReadsAsExpr d right) :
    ReadsAsOperand d (binary op left right) := by
  intro b r r' hb hoperand hr hr' h
  have hblank : ∀ rest, FollowsExpr (' ' :: rest) := by
    rintro rest c ⟨⟩
    exact .inl rfl
  have hclose : ∀ rest, FollowsExpr (')' :: rest) := by
    rintro rest c ⟨⟩
    exact .inr rfl
  have hspace : ∀ rest : List Char, ∀ c ∈ (' ' :: rest).head?, (c != ' ') = false := by
    rintro rest c ⟨⟩
    rfl
  rw [toList_group hop] at h
  cases hb with
  | column table name =>
    obtain ⟨cs, hcs⟩ := head_column hd table name
    rw [hcs] at h
    exact absurd (List.cons.inj h).1 (by decide)
  | @binary op' left' right' _ hgrouped hgrouped' =>
    rw [toList_group hoperand] at h
    obtain ⟨rfl, hsymbol⟩ := hleft hgrouped (hblank _) (hblank _) (List.cons.inj h).2
    obtain ⟨hsame, hright'⟩ := eq_of_append_eq (ne_blank_of_mem_symbol op) (ne_blank_of_mem_symbol op')
      (hspace _) (hspace _) (List.cons.inj hsymbol).2
    obtain rfl := Operator.symbol_injective (String.toList_inj.mp hsame)
    obtain ⟨rfl, hrest⟩ := hright hgrouped' (hclose _) (hclose _) (List.cons.inj hright').2
    exact ⟨rfl, (List.cons.inj hrest).2⟩

/-- An operand is an expression of its own where no comparison goes on behind it. -/
theorem ReadsAsOperand.readsAsExpr {a : Expr} (ha : ReadsAsOperand d a) : ReadsAsExpr d a := by
  intro b r r' hb hr hr' h
  by_cases hb' : b.isComparison = true
  · cases hb with
    | column table name => cases hb'
    | @binary op left right houter hleft hright =>
      have hop : op.isComparison = true := hb'
      rw [toList_comparison hop] at h
      have hrest := (ha hleft (houter hop) hr.followsOperand (followsOperand_symbol hop _) h).2
      exact absurd hrest (hr.ne_symbol hop _)
  · exact ha hb (by simpa using hb') hr.followsOperand hr'.followsOperand h

theorem readsAsExpr_comparison (hd : d ≠ .bigquery) {op : Operator} (hop : op.isComparison = true)
    {left right : Expr} (hgrouped : right.RightGrouped) (hleft : ReadsAsOperand d left)
    (hright : ReadsAsExpr d right) : ReadsAsExpr d (binary op left right) := by
  have hnext : ∀ {e : Expr}, e.RightGrouped → ∀ rest : List Char,
      ∀ c ∈ ((e.text d.spelling).toList ++ rest).head?, isComparing c = false := by
    intro e he rest c hc
    obtain ⟨c', cs, hcs, hcomparing⟩ := head_text hd he
    rw [hcs] at hc
    cases hc
    exact hcomparing
  intro b r r' hb hr hr' h
  rw [toList_comparison hop] at h
  by_cases hb' : b.isComparison = true
  · cases hb with
    | column table name => cases hb'
    | @binary op' left' right' houter hleft' hright' =>
      have hop' : op'.isComparison = true := hb'
      rw [toList_comparison hop'] at h
      obtain ⟨rfl, hsymbol⟩ := hleft hleft' (houter hop') (followsOperand_symbol hop _)
        (followsOperand_symbol hop' _) h
      obtain ⟨hsame, hrest⟩ := eq_of_append_eq (isComparing_of_mem_symbol hop)
        (isComparing_of_mem_symbol hop') (hnext hgrouped _) (hnext hright' _) hsymbol
      obtain rfl := Operator.symbol_injective (String.toList_inj.mp hsame)
      obtain ⟨rfl, rfl⟩ := hright hright' hr hr' hrest
      exact ⟨rfl, rfl⟩
  · have hrest := (hleft hb (by simpa using hb') (followsOperand_symbol hop _) hr'.followsOperand h).2
    exact absurd hrest.symm (hr'.ne_symbol hop _)

/-- Expressions grouped from the right can be read off their texts. -/
theorem reads_of_rightGrouped (hd : d ≠ .bigquery) {a : Expr} (h : a.RightGrouped) :
    (a.isComparison = false → ReadsAsOperand d a) ∧ ReadsAsExpr d a := by
  -- The left side of a comparison is followed by its symbol, so it is read as an operand; both sides of any other
  -- operator are followed by a blank or a parenthesis and are read as expressions.
  induction h with
  | column table name =>
    have hoperand := readsAsOperand_column hd table name
    exact ⟨fun _ => hoperand, hoperand.readsAsExpr⟩
  | @binary op left right houter hleft hright ihleft ihright =>
    by_cases hop : op.isComparison = true
    · refine ⟨fun hno => absurd hop (by simpa [isComparison] using hno), ?_⟩
      exact readsAsExpr_comparison hd hop hright (ihleft.1 (houter hop)) ihright.2
    · have hoperand := readsAsOperand_group hd (by simpa using hop) ihleft.2 ihright.2
      exact ⟨fun _ => hoperand, hoperand.readsAsExpr⟩

/-- Expressions have one text exactly if their comparisons are regrouped to one expression. -/
theorem text_eq_iff (hd : d ≠ .bigquery) {a b : Expr} (ha : a.IsOperation) (hb : b.IsOperation) :
    a.text d.spelling = b.text d.spelling ↔ a.regrouped = b.regrouped := by
  rw [← text_regrouped d.spelling ha, ← text_regrouped d.spelling hb]
  constructor
  · intro h
    have hread := (reads_of_rightGrouped hd (rightGrouped_regrouped ha)).2
    have htexts : (a.regrouped.text d.spelling).toList ++ [] = (b.regrouped.text d.spelling).toList ++ [] := by
      rw [h]
    exact (hread (rightGrouped_regrouped hb) followsExpr_nil followsExpr_nil htexts).1
  · intro h
    rw [h]

/-- Where no comparison is compared, the text tells the expression. -/
theorem eq_of_text_eq (hd : d ≠ .bigquery) {a b : Expr} (ha : a.IsOperation) (hb : b.IsOperation)
    (hno : a.comparesComparison = false) (h : a.text d.spelling = b.text d.spelling) : a = b := by
  have hregrouped := (text_eq_iff hd ha hb).mp h
  have hno' : b.comparesComparison = false := by
    rw [← comparesComparison_regrouped hb, ← hregrouped, comparesComparison_regrouped ha, hno]
  rwa [regrouped_eq_self ha hno, regrouped_eq_self hb hno'] at hregrouped

end Expr

end Sql

/-! ## Lowered expressions -/

theorem Expr.isOperation_of_lower {scope : Scope} {e : Expr} (h : e.IsOperation) :
    ∀ {e' : Sql.Expr}, e.lower scope = .ok e' → e'.IsOperation := by
  induction h with
  | column table name =>
    intro e' hlower
    obtain ⟨q, rfl⟩ := Expr.eq_column_of_lower hlower
    exact .column q name
  | binary op _ _ ihleft ihright =>
    intro e' hlower
    simp only [lower, lowerWith, bind_eq_ok, pure_eq_ok] at hlower
    obtain ⟨left', hleft, right', hright, rfl⟩ := hlower
    exact .binary (.of op) (ihleft hleft) (ihright hright)

/-- In DuckDB and PostgreSQL two expressions of columns and operators are lowered to one text exactly if they
are lowered to one expression but for the grouping of rows of comparisons. If in one of them no comparison is
compared, one text means one lowered expression. -/
theorem one_text_iff_regrouped {d : Sql.Dialect} (hd : d ≠ .bigquery) {scope scope' : Scope} {e e' : Expr}
    (he : e.IsOperation) (he' : e'.IsOperation) {l l' : Sql.Expr} (hl : e.lower scope = .ok l)
    (hl' : e'.lower scope' = .ok l') :
    (l.text d.spelling = l'.text d.spelling ↔ l.regrouped = l'.regrouped) ∧
      (l.comparesComparison = false → l.text d.spelling = l'.text d.spelling → l = l') := by
  have hop : l.IsOperation := Expr.isOperation_of_lower he hl
  have hop' : l'.IsOperation := Expr.isOperation_of_lower he' hl'
  exact ⟨Sql.Expr.text_eq_iff hd hop hop', Sql.Expr.eq_of_text_eq hd hop hop'⟩

/-- Whether the clicks are more than what was spent but for the tax. -/
def Expr.moreThanSpent : Expr :=
  .binary .gt (.column none "clicks") (.binary .subtract (.column none "spent") (.column none "tax"))

/-- Whether the clicks are more than what was spent, less the tax. -/
def Expr.moreLessTax : Expr :=
  .binary .subtract (.binary .gt (.column none "clicks") (.column none "spent")) (.column none "tax")

theorem one_text_iff_regrouped_clicks :
    ∃ l l', Sql.Dialect.duckdb ≠ .bigquery ∧ Expr.moreThanSpent.IsOperation ∧
      Expr.moreLessTax.IsOperation ∧ Expr.moreThanSpent.lower ⟨"clicks", []⟩ = .ok l ∧
      Expr.moreLessTax.lower ⟨"clicks", []⟩ = .ok l' ∧
      l.text Sql.Dialect.duckdb.spelling ≠ l'.text Sql.Dialect.duckdb.spelling := by
  have he : Expr.moreThanSpent.IsOperation :=
    .binary _ (.column _ _) (.binary _ (.column _ _) (.column _ _))
  have he' : Expr.moreLessTax.IsOperation :=
    .binary _ (.binary _ (.column _ _) (.column _ _)) (.column _ _)
  refine ⟨_, _, by decide, he, he', rfl, rfl, fun htext => ?_⟩
  have hsame := (one_text_iff_regrouped (by decide) he he' rfl rfl).2 rfl htext
  cases hsame

/-- Whether it is open that what is due equals what is paid, as an equality. -/
def Expr.equalityIsOpen : Expr :=
  .binary .eq (.binary .eq (.column none "due") (.column none "paid")) (.column none "open")

/-- Whether what is due equals whether what is paid is open. -/
def Expr.dueEqualsOpen : Expr :=
  .binary .eq (.column none "due") (.binary .eq (.column none "paid") (.column none "open"))

/-- Two equalities in a row have one text for both ways to group them. -/
theorem equalities_share_a_text :
    ∃ l l', Expr.equalityIsOpen.IsOperation ∧ Expr.dueEqualsOpen.IsOperation ∧
      Expr.equalityIsOpen.lower ⟨"bills", []⟩ = .ok l ∧ Expr.dueEqualsOpen.lower ⟨"bills", []⟩ = .ok l' ∧
      l.text Sql.Dialect.duckdb.spelling = l'.text Sql.Dialect.duckdb.spelling ∧ l ≠ l' := by
  have he : Expr.equalityIsOpen.IsOperation :=
    .binary _ (.binary _ (.column _ _) (.column _ _)) (.column _ _)
  have he' : Expr.dueEqualsOpen.IsOperation :=
    .binary _ (.column _ _) (.binary _ (.column _ _) (.column _ _))
  exact ⟨_, _, he, he', rfl, rfl, by decide, nofun⟩

end CubeSql
