import CubeSql.Proofs.Numerals
import CubeSql.Proofs.WrittenAggregates

/-!
# Expressions are written as closed fragments

Scanning a text by the quoting rules of DuckDB and PostgreSQL finds the parentheses that stand outside of
quotations. A text is closed if it ends outside of quotations, closes every parenthesis it opens and no other.
Whatever names, texts and constants an expression holds, its text is closed, as all of them stand between
quotes. The name of a type in a cast does not: it has to be closed between the parentheses of its cast.
-/

namespace CubeSql

/-- The names of the types to which a function converts. -/
def Function.castTypes : Function → List String
  | .cast dataType => [dataType]
  | _ => []

namespace Sql

/-! ## Scanning -/

/-- Scans a text that starts outside of quotations, or inside one that ends with the given quote, where so
many parentheses are open. In a quotation a doubled quote stands for one. The result is how many parentheses
are open in the end, if the text ends outside of quotations and closes none that is not open. -/
def scan : Option Char → Nat → List Char → Option Nat
  | none, depth, [] => some depth
  | some _, _, [] => none
  | none, depth, c :: rest =>
    if c = nameQuote ∨ c = textQuote then scan (some c) depth rest
    else if c = '(' then scan none (depth + 1) rest
    else if c = ')' then (if depth = 0 then none else scan none (depth - 1) rest)
    else scan none depth rest
  | some quote, depth, [c] => if c = quote then some depth else none
  | some quote, depth, c :: d :: rest =>
    if c ≠ quote then scan (some quote) depth (d :: rest)
    else if d = quote then scan (some quote) depth rest
    else scan none depth (d :: rest)

/-- Where a scan may be: outside of quotations, or inside one with a quote that opens quotations. -/
def IsSpot (spot : Option Char) : Prop := ∀ c ∈ spot, c = nameQuote ∨ c = textQuote

theorem isSpot_none : IsSpot none := nofun

theorem isSpot_some {c : Char} (h : c = nameQuote ∨ c = textQuote) : IsSpot (some c) := by
  intro d hd
  cases Option.mem_some.mp hd
  exact h

/-- A doubled quote may as well end its quotation and open the next one. -/
theorem scan_quoted {quote : Char} (h : IsSpot (some quote)) (depth : Nat) (c : Char) (rest : List Char) :
    scan (some quote) depth (c :: rest) =
      if c = quote then scan none depth rest else scan (some quote) depth rest := by
  cases rest with
  | nil => simp [scan]
  | cons d rest =>
    by_cases hc : c = quote
    · subst hc
      by_cases hd : d = c
      · subst hd
        have hopen : scan none depth (d :: rest) = scan (some d) depth rest := by
          rw [scan, if_pos (h d rfl)]
        rw [if_pos rfl, hopen, scan, if_neg (not_not.mpr rfl), if_pos rfl]
      · simp [scan, hd]
    · simp [scan, hc]

/-- A scan goes on behind a text where that text has left it, also where more parentheses are open. -/
theorem scan_append {a : List Char} (b : List Char) (more : Nat) :
    ∀ {spot : Option Char} {depth n : Nat}, IsSpot spot → scan spot depth a = some n →
      scan spot (depth + more) (a ++ b) = scan none (n + more) b := by
  -- Spot and depth change with every character. As a doubled quote counts as two quotations, one character at a
  -- time is enough.
  induction a with
  | nil =>
    intro spot depth n hspot h
    cases spot with
    | none =>
      cases h
      rfl
    | some quote => cases h
  | cons c a ih =>
    intro spot depth n hspot h
    cases spot with
    | some quote =>
      rw [scan_quoted hspot] at h
      rw [List.cons_append, scan_quoted hspot]
      split_ifs at h ⊢ with hc
      · exact ih isSpot_none h
      · exact ih hspot h
    | none =>
      rw [scan] at h
      rw [List.cons_append, scan]
      split_ifs at h ⊢ with hquote hopen hclose hzero hmore hmore
      · exact ih (isSpot_some hquote) h
      · rw [Nat.add_right_comm]
        exact ih isSpot_none h
      · omega
      · have hdepth : depth + more - 1 = depth - 1 + more := by omega
        rw [hdepth]
        exact ih isSpot_none h
      · exact ih isSpot_none h

/-- Scanning the text outside of quotations changes the number of open parentheses from one to the other. -/
def Scans (m n : Nat) (text : String) : Prop := scan none m text.toList = some n

instance (m n : Nat) (text : String) : Decidable (Scans m n text) :=
  inferInstanceAs (Decidable (_ = _))

theorem Scans.append {m k n : Nat} {a b : String} (ha : Scans m k a) (hb : Scans k n b) :
    Scans m n (a ++ b) := by
  have h := scan_append b.toList 0 isSpot_none ha
  rw [Nat.add_zero, Nat.add_zero] at h
  rw [Scans, String.toList_append, h]
  exact hb

/-- The text ends outside of quotations, and the parentheses outside of quotations are balanced. -/
def Closed (text : String) : Prop := Scans 0 0 text

instance (text : String) : Decidable (Closed text) := inferInstanceAs (Decidable (Scans 0 0 text))

/-- The text is closed between two parentheses. -/
def Enclosed (text : String) : Prop := Closed ("(" ++ text ++ ")")

instance (text : String) : Decidable (Enclosed text) := inferInstanceAs (Decidable (Closed _))

theorem Scans.shift {m n : Nat} {a : String} (h : Scans m n a) (more : Nat) :
    Scans (m + more) (n + more) a := by
  have h := scan_append [] more isSpot_none h
  rwa [List.append_nil] at h

namespace Closed

variable {a b : String}

theorem scans (h : Closed a) (n : Nat) : Scans n n a := by
  have hshift := Scans.shift h n
  rwa [Nat.zero_add] at hshift

theorem append (ha : Closed a) (hb : Closed b) : Closed (a ++ b) := Scans.append ha hb

/-- A text that opens a parenthesis, a closed one and the end of the parenthesis. -/
theorem enclose {opening : String} (h : Closed a) (hopening : Scans 0 1 opening) :
    Closed (opening ++ a ++ ")") :=
  (hopening.append (h.scans 1)).append (by decide)

theorem join {texts : List String} (h : ∀ text ∈ texts, Closed text) : Closed (String.join texts) := by
  induction texts with
  | nil => decide
  | cons first texts ih =>
    obtain ⟨hfirst, hrest⟩ := List.forall_mem_cons.mp h
    rw [String.join_cons]
    exact hfirst.append (ih hrest)

theorem intercalate {texts : List String} {separator : String} (hseparator : Closed separator)
    (h : ∀ text ∈ texts, Closed text) : Closed (separator.intercalate texts) := by
  match texts with
  | [] =>
    rw [String.intercalate_nil]
    decide
  | [only] => exact h only List.mem_cons_self
  | first :: second :: texts =>
    obtain ⟨hfirst, hrest⟩ := List.forall_mem_cons.mp h
    rw [String.intercalate_cons_cons]
    exact (hfirst.append hseparator).append (hseparator.intercalate hrest)

end Closed

/-- The type of a cast whose argument is closed is all that matters for it. -/
theorem closed_cast_iff {arg dataType : String} (h : Closed arg) :
    Closed ("CAST(" ++ arg ++ " AS " ++ dataType ++ ")") ↔ Enclosed dataType := by
  have hbefore : Scans 0 1 ("CAST(" ++ arg ++ " AS ") :=
    ((by decide : Scans 0 1 "CAST(").append (h.scans 1)).append (by decide)
  have hopen : Scans 0 1 "(" := by decide
  have hcast := scan_append (dataType.toList ++ [')']) 0 isSpot_none hbefore
  have hparens := scan_append (dataType.toList ++ [')']) 0 isSpot_none hopen
  have hsame : scan none 0 ("CAST(" ++ arg ++ " AS " ++ dataType ++ ")").toList =
      scan none 0 ("(" ++ dataType ++ ")").toList := by
    simpa [String.toList_append] using hcast.trans hparens.symm
  rw [Enclosed, Closed, Closed, Scans, Scans, hsame]

/-! ## Constants and names -/

theorem scan_doubled {quote : Char} (h : IsSpot (some quote)) (s : List Char) :
    scan none 0 (quote :: (s.flatMap (doubled quote) ++ [quote])) = some 0 := by
  have hinside : scan (some quote) 0 (s.flatMap (doubled quote) ++ [quote]) = some 0 := by
    induction s with
    | nil => simp [scan]
    | cons c s ih =>
      by_cases hc : c = quote
      · subst hc
        simp only [List.flatMap_cons, doubled, if_true, List.cons_append, List.nil_append]
        rw [scan, if_neg (not_not.mpr rfl), if_pos rfl]
        exact ih
      · simp only [List.flatMap_cons, doubled, hc, if_false, List.cons_append, List.nil_append]
        rw [scan_quoted h, if_neg hc]
        exact ih
  rw [scan, if_pos (h quote rfl)]
  exact hinside

theorem closed_doubled {quote : Char} (h : IsSpot (some quote)) (s : String) :
    Closed (between quote (escapeWith (doubled quote) s)) := by
  have hscan := scan_doubled h s.toList
  rw [Closed, Scans]
  simpa [between, escapeWith] using hscan

/-- The characters that neither open nor close anything. -/
def isPlain (c : Char) : Bool := c ≠ nameQuote && c ≠ textQuote && c ≠ '(' && c ≠ ')'

theorem scan_plain {s : List Char} (h : ∀ c ∈ s, isPlain c = true) : scan none 0 s = some 0 := by
  induction s with
  | nil => rfl
  | cons c s ih =>
    obtain ⟨hc, hs⟩ := List.forall_mem_cons.mp h
    simp only [isPlain, ne_eq, decide_not, Bool.and_eq_true, Bool.not_eq_eq_eq_not, Bool.not_true,
      decide_eq_false_iff_not] at hc
    obtain ⟨⟨⟨hname, htext⟩, hopen⟩, hclose⟩ := hc
    rw [scan, if_neg (not_or.mpr ⟨hname, htext⟩), if_neg hopen, if_neg hclose]
    exact ih hs

theorem isPlain_of_isNumeral {c : Char} (h : isNumeral c = true) : isPlain c = true := by
  have hname : c ≠ nameQuote := ne_of_isNumeral h rfl
  have htext : c ≠ textQuote := ne_of_isNumeral h rfl
  have hopen : c ≠ '(' := ne_of_isNumeral h rfl
  have hclose : c ≠ ')' := ne_of_isNumeral h rfl
  simp [isPlain, hname, htext, hopen, hclose]

theorem isPlain_toString_int (n : Int) : ∀ c ∈ (toString n).toList, isPlain c = true :=
  fun c hc => isPlain_of_isNumeral (isNumeral_toString_int n c hc)

theorem isPlain_number (n : Number) : ∀ c ∈ n.text.toList, isPlain c = true :=
  fun c hc => isPlain_of_isNumeral (isNumeral_number n c hc)

theorem isSpot_textQuote : IsSpot (some textQuote) := isSpot_some (.inr rfl)

theorem isSpot_nameQuote : IsSpot (some nameQuote) := isSpot_some (.inl rfl)

variable {d : Dialect}

theorem closed_quoteName (hd : d ≠ .bigquery) (name : String) : Closed (d.spelling.quoteName name) := by
  cases d with
  | duckdb => exact closed_doubled isSpot_nameQuote name
  | postgres => exact closed_doubled isSpot_nameQuote name
  | bigquery => exact absurd rfl hd

theorem closed_quoteText (hd : d ≠ .bigquery) (text : String) : Closed (d.spelling.quoteText text) := by
  cases d with
  | duckdb => exact closed_doubled isSpot_textQuote text
  | postgres => exact closed_doubled isSpot_textQuote text
  | bigquery => exact absurd rfl hd

theorem closed_scalar (hd : d ≠ .bigquery) (v : Scalar) : Closed (d.spelling.scalar v) := by
  cases v with
  | null => exact (by decide : Closed "NULL")
  | bool b =>
    cases b with
    | false => exact (by decide : Closed "false")
    | true => exact (by decide : Closed "true")
  | number n => exact scan_plain (isPlain_number n)
  | text text => exact closed_quoteText hd text

mutual

theorem closed_literal (hd : d ≠ .bigquery) : ∀ v : Value, Closed (d.spelling.literal v)
  | .scalar v => closed_scalar hd v
  | .array items => Closed.intercalate (by decide) (closed_literals hd items)
  | .object members => closed_quoteText hd (Value.object members).compact

theorem closed_literals (hd : d ≠ .bigquery) :
    ∀ vs : List Value, ∀ text ∈ d.spelling.literals vs, Closed text
  | [] => nofun
  | v :: vs => List.forall_mem_cons.mpr ⟨closed_literal hd v, closed_literals hd vs⟩

end

/-! ## Parts of expressions -/

theorem scan_within {quote : Char} (h : IsSpot (some quote)) {s : List Char} (hs : ∀ c ∈ s, c ≠ quote)
    (rest : List Char) : scan (some quote) 0 (s ++ rest) = scan (some quote) 0 rest := by
  induction s with
  | nil => rfl
  | cons c s ih =>
    obtain ⟨hc, hs⟩ := List.forall_mem_cons.mp hs
    rw [List.cons_append, scan_quoted h, if_neg hc]
    exact ih hs

theorem closed_span (n : Int) {unit : String} (h : scan (some textQuote) 0 unit.toList = some 0) :
    Closed ("INTERVAL '" ++ toString n ++ unit) := by
  have hopen : ∀ rest, scan none 0 ("INTERVAL '".toList ++ rest) = scan (some textQuote) 0 rest :=
    fun rest => rfl
  have hquote : ∀ c ∈ (toString n).toList, c ≠ textQuote := by
    rintro c hc rfl
    exact absurd (isPlain_toString_int n _ hc) (by decide)
  rw [Closed, Scans, String.toList_append, String.toList_append, List.append_assoc, hopen,
    scan_within isSpot_textQuote hquote, h]

theorem closed_quotedInterval (quantity : Int) (unit : TimeGrain) :
    Closed (Spelling.quotedInterval quantity unit) := by
  cases unit with
  | day => exact closed_span quantity (by decide)
  | week => exact closed_span quantity (by decide)
  | month => exact closed_span quantity (by decide)
  | quarter => exact closed_span (quantity * 3) (by decide)
  | year => exact closed_span quantity (by decide)

theorem closed_interval (hd : d ≠ .bigquery) (quantity : Int) (unit : TimeGrain) :
    Closed (d.spelling.interval quantity unit) := by
  cases d with
  | duckdb =>
    have hquantity : Closed (toString quantity) := scan_plain (isPlain_toString_int quantity)
    have hkeyword : Closed unit.keyword := by cases unit <;> decide
    exact (((by decide : Closed "INTERVAL ").append hquantity).append (by decide)).append hkeyword
  | postgres => exact closed_quotedInterval quantity unit
  | bigquery => exact absurd rfl hd

theorem closed_dateTrunc (hd : d ≠ .bigquery) (grain : TimeGrain) {arg : String} (h : Closed arg) :
    Closed (d.spelling.dateTrunc grain arg) := by
  have hopening : Scans 0 1 ("date_trunc('" ++ grain.name ++ "', ") := by cases grain <;> decide
  cases d with
  | duckdb => exact h.enclose hopening
  | postgres => exact h.enclose hopening
  | bigquery => exact absurd rfl hd

theorem closed_median (hd : d ≠ .bigquery) {arg : String} (h : Closed arg) :
    Closed (d.spelling.median arg) := by
  cases d with
  | duckdb => exact h.enclose (by decide : Scans 0 1 "MEDIAN(")
  | postgres => exact h.enclose (by decide)
  | bigquery => exact absurd rfl hd

theorem closed_aggregate (hd : d ≠ .bigquery) (a : Aggregation) {arg : String} (h : Closed arg) :
    Closed (d.spelling.aggregate a arg) := by
  cases a with
  | sum => exact h.enclose (by decide)
  | count => exact h.enclose (by decide)
  | countDistinct => exact h.enclose (by decide)
  | min => exact h.enclose (by decide)
  | max => exact h.enclose (by decide)
  | avg => exact h.enclose (by decide)
  | median => exact closed_median hd h

theorem closed_symbol (op : Operator) : Closed op.symbol := by
  cases op with
  | like => decide
  | of op => cases op <;> decide

/-- A call of a function with closed arguments is closed if the type to which it converts is. -/
theorem closed_call (hd : d ≠ .bigquery) {f : Function} {args : List String}
    (htypes : f.takes args.length = true → ∀ t ∈ f.castTypes, Enclosed t)
    (hargs : f.takes args.length = true → ∀ arg ∈ args, Closed arg) :
    Closed (d.spelling.call f args) := by
  have hnone : Closed "NULL" := by decide
  have hlist : f.takes args.length = true → Closed (", ".intercalate args) :=
    fun htakes => Closed.intercalate (by decide) (hargs htakes)
  cases f with
  | lower => exact (hlist rfl).enclose (by decide)
  | upper => exact (hlist rfl).enclose (by decide)
  | coalesce => exact (hlist rfl).enclose (by decide)
  | concat => exact (hlist rfl).enclose (by decide)
  | nullIf =>
    match args with
    | [left, right] =>
      have hleft : Closed left := hargs rfl left List.mem_cons_self
      have hright : Closed right := hargs rfl right (List.mem_cons_of_mem _ List.mem_cons_self)
      have hopening : Scans 0 1 ("nullif(" ++ left ++ ", ") :=
        ((by decide : Scans 0 1 "nullif(").append (hleft.scans 1)).append (by decide)
      exact hright.enclose hopening
    | [] => exact hnone
    | [_] => exact hnone
    | _ :: _ :: _ :: _ => exact hnone
  | cast dataType =>
    match args with
    | [arg] =>
      have harg : Closed arg := hargs rfl arg List.mem_cons_self
      exact (closed_cast_iff harg).mpr (htypes rfl dataType List.mem_cons_self)
    | [] => exact hnone
    | _ :: _ :: _ => exact hnone
  | dateTrunc grain =>
    match args with
    | [arg] => exact closed_dateTrunc hd grain (hargs rfl arg List.mem_cons_self)
    | [] => exact hnone
    | _ :: _ :: _ => exact hnone

/-! ## Expressions -/

namespace Expr

mutual

/-- The names of the types that are written of the casts in an expression. Nothing is written of a call with a
wrong number of arguments. -/
def castTypes : Expr → List String
  | .column _ _ => []
  | .literal _ => []
  | .call f args => if f.takes args.length then f.castTypes ++ allCastTypes args else []
  | .case branches otherwise => branchCastTypes branches ++ castTypes otherwise
  | .binary _ left right => castTypes left ++ castTypes right
  | .aggregate _ arg => castTypes arg
  | .inList subject items _ => castTypes subject ++ allCastTypes items
  | .between subject low high => castTypes subject ++ castTypes low ++ castTypes high
  | .isNull subject _ => castTypes subject
  | .interval _ _ => []

/-- The names of the types in several expressions. -/
def allCastTypes : List Expr → List String
  | [] => []
  | e :: es => castTypes e ++ allCastTypes es

/-- The names of the types in several branches. -/
def branchCastTypes : List (Expr × Expr) → List String
  | [] => []
  | (condition, result) :: branches => castTypes condition ++ castTypes result ++ branchCastTypes branches

end

mutual

/-- The text of an expression is closed if the types of its casts are. -/
theorem closed_text (hd : d ≠ .bigquery) :
    ∀ {e : Expr}, (∀ t ∈ e.castTypes, Enclosed t) → Closed (e.text d.spelling)
  | .column none name, _ => by
    rw [text]
    exact closed_quoteName hd name
  | .column (some table) name, _ => by
    rw [text]
    exact ((closed_quoteName hd table).append (by decide)).append (closed_quoteName hd name)
  | .literal v, _ => by
    rw [text]
    exact closed_literal hd v
  | .interval quantity unit, _ => by
    rw [text]
    exact closed_interval hd quantity unit
  | .call f args, h => by
    rw [text]
    rw [castTypes] at h
    by_cases htakes : f.takes args.length = true
    · rw [if_pos htakes, List.forall_mem_append] at h
      exact closed_call hd (fun _ => h.1) (fun _ => closed_texts hd h.2)
    · rw [← length_texts d.spelling] at htakes
      exact closed_call hd (fun h => absurd h htakes) (fun h => absurd h htakes)
  | .aggregate a arg, h => by
    rw [text]
    exact closed_aggregate hd a (closed_text hd h)
  | .case branches otherwise, h => by
    rw [castTypes, List.forall_mem_append] at h
    have hbranches := Closed.join (closed_branchTexts hd h.1)
    have hotherwise := closed_text hd h.2
    rw [text]
    exact ((((by decide : Closed "CASE").append hbranches).append (by decide)).append hotherwise).append
      (by decide)
  | .binary op left right, h => by
    rw [castTypes, List.forall_mem_append] at h
    have hleft := closed_text hd h.1
    have hright := closed_text hd h.2
    have hsymbol := closed_symbol op
    rw [text]
    split_ifs
    · exact (hleft.append hsymbol).append hright
    · have hopening : Scans 0 1 ("(" ++ text d.spelling left ++ " " ++ op.symbol ++ " ") :=
        ((((by decide : Scans 0 1 "(").append (hleft.scans 1)).append (by decide)).append
          (hsymbol.scans 1)).append (by decide)
      exact hright.enclose hopening
  | .inList subject items negated, h => by
    rw [castTypes, List.forall_mem_append] at h
    have hsubject := closed_text hd h.1
    have hitems : Closed (", ".intercalate (texts d.spelling items)) :=
      Closed.intercalate (by decide) (closed_texts hd h.2)
    have hopening : Scans 0 1 (text d.spelling subject ++ if negated then " NOT IN (" else " IN (") := by
      refine Scans.append hsubject ?_
      split_ifs <;> decide
    rw [text]
    exact hitems.enclose hopening
  | .between subject low high, h => by
    rw [castTypes, List.forall_mem_append, List.forall_mem_append] at h
    obtain ⟨⟨hsubject, hlow⟩, hhigh⟩ := h
    rw [text]
    exact ((((closed_text hd hsubject).append (by decide)).append (closed_text hd hlow)).append
      (by decide)).append (closed_text hd hhigh)
  | .isNull subject negated, h => by
    rw [text]
    refine (closed_text hd (e := subject) h).append ?_
    split_ifs <;> decide

theorem closed_texts (hd : d ≠ .bigquery) :
    ∀ {es : List Expr}, (∀ t ∈ allCastTypes es, Enclosed t) → ∀ text ∈ texts d.spelling es, Closed text
  | [], _ => nofun
  | e :: es, h => by
    rw [allCastTypes, List.forall_mem_append] at h
    exact List.forall_mem_cons.mpr ⟨closed_text hd h.1, closed_texts hd h.2⟩

theorem closed_branchTexts (hd : d ≠ .bigquery) :
    ∀ {bs : List (Expr × Expr)}, (∀ t ∈ branchCastTypes bs, Enclosed t) →
      ∀ text ∈ branchTexts d.spelling bs, Closed text
  | [], _ => nofun
  | (condition, result) :: bs, h => by
    rw [branchCastTypes, List.forall_mem_append, List.forall_mem_append] at h
    obtain ⟨⟨hcondition, hresult⟩, hrest⟩ := h
    have hbranch := (((by decide : Closed " WHEN ").append (closed_text hd hcondition)).append
      (by decide : Closed " THEN ")).append (closed_text hd hresult)
    exact List.forall_mem_cons.mpr ⟨hbranch, closed_branchTexts hd hrest⟩

end

end Expr

/-- In DuckDB and PostgreSQL the text of an expression ends outside of quotations and its parentheses are
balanced, whatever names and constants it holds, if the name of every type to which it casts is closed between
parentheses. No less will do: a cast of the expression to another type is closed exactly if the name of that
type is. -/
theorem expressions_closed {d : Dialect} (hd : d ≠ .bigquery) {e : Expr}
    (h : ∀ t ∈ e.castTypes, Enclosed t) :
    Closed (e.text d.spelling) ∧
      ∀ t, Closed ((Expr.call (.cast t) [e]).text d.spelling) ↔ Enclosed t := by
  have hclosed := Expr.closed_text hd h
  refine ⟨hclosed, fun t => ?_⟩
  have htext : (Expr.call (.cast t) [e]).text d.spelling =
      "CAST(" ++ e.text d.spelling ++ " AS " ++ t ++ ")" := by
    rw [Expr.text, Expr.texts, Expr.texts, Spelling.call]
  rw [htext]
  exact closed_cast_iff hclosed

/-- The lower-case price of a column, as a decimal, where it differs from a text: quotes and parentheses stand
in a name, in a constant and in the name of a type. -/
def Expr.decimalPrice : Expr :=
  .binary (.of .neq)
    (.call (.cast "DECIMAL(10, 2)") [.call .lower [.column (some "t0") "price \"net\" (it's"]])
    (.literal (.text "1)'"))

theorem expressions_closed_decimalPrice :
    Dialect.postgres ≠ .bigquery ∧ (∀ t ∈ Expr.decimalPrice.castTypes, Enclosed t) ∧
      Closed (Expr.decimalPrice.text Dialect.postgres.spelling) := by
  have htypes : ∀ t ∈ Expr.decimalPrice.castTypes, Enclosed t := by decide
  exact ⟨by decide, htypes, (expressions_closed (by decide) htypes).1⟩

/-- The name of a type may end the parenthesis of its cast. -/
theorem cast_leaves_its_parenthesis :
    ¬ Closed ((Expr.call (.cast "INT)") [.column none "a"]).text Dialect.duckdb.spelling) := by
  decide

end Sql

end CubeSql
