import CubeSql.Proofs.ClosedText
import CubeSql.Proofs.ConstantLists
import CubeSql.Proofs.FaithfulLowering
import CubeSql.Proofs.OperatorText
import CubeSql.Proofs.WrittenColumns

/-!
# Predicates read off their descriptions

A description is the text of a predicate without quotes around names and without qualifiers. Where names are plain
words, and the name of a column tells its table, nothing is lost: `Dialect.translate` works out the text in a
dialect from the description alone, word by word. So predicates with one description have one text in every
dialect.

The words of a call are known by the parenthesis behind them. As dialects write some calls in different ways,
what closes a call is chosen where it opens.
-/

namespace CubeSql

namespace Sql

/-! ## Words -/

/-- The characters between words that are written alike in every dialect. -/
def marks : List Char := [' ', ',', '=', '<', '>']

/-- Whether a character stands in a word of a description, and does not end it. -/
def isWordChar (c : Char) : Bool := c ∉ '(' :: ')' :: textQuote :: marks

/-- The words and operators of SQL that are written alike in every dialect. -/
def keywords : List String := ["NULL", "true", "false", "CASE", "WHEN", "THEN", "ELSE", "END", "AND", "OR",
  "LIKE", "IN", "NOT", "IS", "BETWEEN", "DISTINCT", "+", "-", "*", "/", "%"]

/-- The word before the type of a conversion. -/
def typeKeyword : List Char := "AS".toList

/-- Whether a word is written alike in every dialect: a keyword, an operator or a number. -/
def isFixed (word : List Char) : Bool := isNumberText word || word ∈ keywords.map String.toList

/-- Whether a name is read as a word, and as none of SQL. -/
def isPlainName (name : String) : Bool :=
  name != "" && name.toList.all isWordChar && !isFixed name.toList && name.toList != typeKeyword

theorem isWordChar_of_isNumeral {c : Char} (h : isNumeral c = true) : isWordChar c = true := by
  have hall : ('(' :: ')' :: textQuote :: marks).all (!isNumeral ·) = true := by decide
  exact decide_eq_true fun hc => by simpa [h] using List.all_eq_true.mp hall c hc

/-! ## Readers -/

/-- Reads the type of a conversion up to the parenthesis that closes it: the type, and what follows. -/
def readType : Option Char → Nat → List Char → List Char × List Char
  | _, _, [] => ([], [])
  | some quote, depth, c :: rest =>
    (readType (if c = quote then none else some quote) depth rest).map (c :: ·) id
  | none, depth, c :: rest =>
    if c = nameQuote ∨ c = textQuote then (readType (some c) depth rest).map (c :: ·) id
    else if c = '(' then (readType none (depth + 1) rest).map (c :: ·) id
    else if c = ')' then
      if depth = 0 then ([], c :: rest) else (readType none (depth - 1) rest).map (c :: ·) id
    else (readType none depth rest).map (c :: ·) id

theorem readType_of_scan {type : List Char} (rest : List Char) :
    ∀ {spot : Option Char} {depth : Nat}, IsSpot spot → scan spot depth type = some 0 →
      readType spot depth (type ++ ')' :: rest) = (type, ')' :: rest) := by
  induction type with
  | nil =>
    intro spot depth hspot h
    cases spot with
    | some quote => cases h
    | none =>
      cases h
      rfl
  | cons c type ih =>
    intro spot depth hspot h
    cases spot with
    | some quote =>
      rw [scan_quoted hspot] at h
      rw [List.cons_append, readType]
      split_ifs at h ⊢ with hc
      · rw [ih isSpot_none h]
        rfl
      · rw [ih hspot h]
        rfl
    | none =>
      rw [scan] at h
      rw [List.cons_append, readType]
      split_ifs at h ⊢ with hquote hopen hclose hzero
      · rw [ih (isSpot_some hquote) h]
        rfl
      · rw [ih isSpot_none h]
        rfl
      · rw [ih isSpot_none h]
        rfl
      · rw [ih isSpot_none h]
        rfl

theorem length_readType (spot : Option Char) (depth : Nat) (input : List Char) :
    (readType spot depth input).2.length ≤ input.length := by
  induction input generalizing spot depth with
  | nil => cases spot <;> exact Nat.le_refl _
  | cons c rest ih =>
    cases spot with
    | some quote => exact Nat.le_succ_of_le (ih _ _)
    | none =>
      rw [readType]
      split_ifs
      · exact Nat.le_succ_of_le (ih _ _)
      · exact Nat.le_succ_of_le (ih _ _)
      · exact Nat.le_refl _
      · exact Nat.le_succ_of_le (ih _ _)
      · exact Nat.le_succ_of_le (ih _ _)

theorem length_readDoubled {quote : Char} : ∀ {input s rest : List Char},
    readDoubled quote input = some (s, rest) → rest.length ≤ input.length
  | [], _, _, h => by cases h
  | [c], s, rest, h => by
    rw [readDoubled] at h
    split_ifs at h
    · cases h
      exact Nat.zero_le _
    · cases h
  | c :: d :: input, s, rest, h => by
    rw [readDoubled] at h
    split_ifs at h
    · obtain ⟨⟨s', rest'⟩, hread, heq⟩ := Option.map_eq_some_iff.mp h
      cases heq
      exact Nat.le_succ_of_le (Nat.le_succ_of_le (length_readDoubled hread))
    · cases h
      exact Nat.le_succ _
    · obtain ⟨⟨s', rest'⟩, hread, heq⟩ := Option.map_eq_some_iff.mp h
      cases heq
      exact Nat.le_succ_of_le (length_readDoubled hread)

/-- Reads a text from behind its first quote on: the text, and what follows. -/
def readTextBody (input : List Char) : String × List Char :=
  ((readDoubled textQuote input).getD ([], [])).map String.ofList id

theorem length_readTextBody (input : List Char) : (readTextBody input).2.length ≤ input.length := by
  rw [readTextBody]
  cases h : readDoubled textQuote input with
  | none => exact Nat.zero_le _
  | some p => exact length_readDoubled h

/-- Reads the unit of time to which a date is rounded down, from the parenthesis before it on: its name, and what
follows the comma behind it. -/
def readGrain (input : List Char) : String × List Char :=
  let grain := (input.drop 2).takeWhile isWordChar
  (String.ofList grain, input.drop (2 + grain.length + 3))

theorem readGrain_name (grain : TimeGrain) (rest : List Char) :
    readGrain ('(' :: textQuote :: (grain.name.toList ++ textQuote :: ',' :: ' ' :: rest)) =
      (grain.name, rest) := by
  cases grain <;> rfl

namespace Dialect

/-! ## Translation -/

/-- What the argument of a call stands between, where this word opens the call. -/
def around (d : Dialect) (word : List Char) : String × String :=
  if word = "MEDIAN".toList then
    match d with
    | duckdb => ("MEDIAN(", ")")
    | postgres => ("PERCENTILE_CONT(0.5) WITHIN GROUP (ORDER BY ", ")")
    | bigquery => ("APPROX_QUANTILES(", ", 2)[OFFSET(1)]")
  else (String.ofList word ++ "(", ")")

/-- What a date stands between that is rounded down to the unit of time of this name. -/
def aroundTrunc (d : Dialect) (grain : String) : String × String :=
  match d with
  | duckdb | postgres => ("date_trunc('" ++ grain ++ "', ", ")")
  | bigquery => ("DATE_TRUNC(", ", " ++ (TimeGrain.ofName? grain).elim "" TimeGrain.keyword ++ ")")

/-- The text of a word that opens no call: a column, unless the word is fixed. -/
def wordText (d : Dialect) (qualifier : String → Option String) (word : List Char) : List Char :=
  if isFixed word then word
  else ((Expr.column (qualifier (String.ofList word)) (String.ofList word)).text d.spelling).toList

/-- The text of an expression from its description. What closes the calls and groups that are open is kept,
that of the innermost first. -/
def translate (d : Dialect) (qualifier : String → Option String) : List String → List Char → List Char
  | _, [] => []
  | closings, c :: rest =>
    if isWordChar c then
      let word := c :: rest.takeWhile isWordChar
      let after := rest.dropWhile isWordChar
      if after.head? = some '(' then
        if word = "date_trunc".toList then
          let read := readGrain after
          (d.aroundTrunc read.1).1.toList ++
            translate d qualifier ((d.aroundTrunc read.1).2 :: closings) read.2
        else (d.around word).1.toList ++ translate d qualifier ((d.around word).2 :: closings) after.tail
      else if word = typeKeyword then
        let read := readType none 0 after
        word ++ read.1 ++ translate d qualifier closings read.2
      else d.wordText qualifier word ++ translate d qualifier closings after
    else if c = textQuote then
      let read := readTextBody rest
      (d.spelling.quoteText read.1).toList ++ translate d qualifier closings read.2
    else if c = '(' then c :: translate d qualifier (")" :: closings) rest
    else if c = ')' then (closings.headD "").toList ++ translate d qualifier closings.tail rest
    else c :: translate d qualifier closings rest
termination_by _ input => input.length
decreasing_by
  all_goals
    have hafter := (List.dropWhile_sublist isWordChar (l := rest)).length_le
    have htype := length_readType none 0 (rest.dropWhile isWordChar)
    have htext := length_readTextBody rest
    simp only [readGrain, List.length_cons, List.length_drop, List.length_tail]
    omega

variable {d : Dialect} {qualifier : String → Option String} {closings : List String}
  {word rest : List Char} {c : Char}

theorem median_eq (arg : String) : d.spelling.median arg =
    (d.around "MEDIAN".toList).1 ++ arg ++ (d.around "MEDIAN".toList).2 := by
  cases d <;> rfl

theorem dateTrunc_eq (grain : TimeGrain) (arg : String) : d.spelling.dateTrunc grain arg =
    (d.aroundTrunc grain.name).1 ++ arg ++ (d.aroundTrunc grain.name).2 := by
  cases d with
  | duckdb => rfl
  | postgres => rfl
  | bigquery =>
    have htext : bigquery.spelling.dateTrunc grain arg =
        "DATE_TRUNC(" ++ arg ++ ", " ++ grain.keyword ++ ")" := rfl
    have hclosing : (bigquery.aroundTrunc grain.name).2 = ", " ++ grain.keyword ++ ")" := by
      cases grain <;> rfl
    rw [htext, hclosing]
    simp only [String.append_assoc]
    rfl

theorem around_of_ne (h : word ≠ "MEDIAN".toList) : d.around word = (String.ofList word ++ "(", ")") :=
  if_neg h

/-- Reading a word takes all of it. -/
theorem translate_word (hword : ∀ c ∈ word, isWordChar c = true) (hne : word ≠ [])
    (hrest : ∀ c ∈ rest.head?, isWordChar c = false) :
    d.translate qualifier closings (word ++ rest) =
      if rest.head? = some '(' then
        if word = "date_trunc".toList then
          (d.aroundTrunc (readGrain rest).1).1.toList ++
            d.translate qualifier ((d.aroundTrunc (readGrain rest).1).2 :: closings) (readGrain rest).2
        else (d.around word).1.toList ++ d.translate qualifier ((d.around word).2 :: closings) rest.tail
      else if word = typeKeyword then
        word ++ (readType none 0 rest).1 ++ d.translate qualifier closings (readType none 0 rest).2
      else d.wordText qualifier word ++ d.translate qualifier closings rest := by
  obtain ⟨c, cs, rfl⟩ := List.exists_cons_of_ne_nil hne
  obtain ⟨hc, hcs⟩ := List.forall_mem_cons.mp hword
  rw [List.cons_append, translate, if_pos hc, Expr.takeWhile_append_eq hcs hrest, dropWhile_append_eq hcs hrest]

theorem translate_open : d.translate qualifier closings ('(' :: rest) =
    '(' :: d.translate qualifier (")" :: closings) rest := by
  rw [translate, if_neg (by decide), if_neg (by decide), if_pos rfl]

theorem translate_close {closing : String} :
    d.translate qualifier (closing :: closings) (')' :: rest) =
      closing.toList ++ d.translate qualifier closings rest := by
  rw [translate, if_neg (by decide), if_neg (by decide), if_neg (by decide), if_pos rfl]
  rfl

theorem translate_mark (hc : c ∈ marks) :
    d.translate qualifier closings (c :: rest) = c :: d.translate qualifier closings rest := by
  simp only [marks, List.mem_cons, List.not_mem_nil, or_false] at hc
  rcases hc with rfl | rfl | rfl | rfl | rfl
  all_goals rw [translate, if_neg (by decide), if_neg (by decide), if_neg (by decide), if_neg (by decide)]

theorem translate_quote : d.translate qualifier closings (textQuote :: rest) =
    (d.spelling.quoteText (readTextBody rest).1).toList ++
      d.translate qualifier closings (readTextBody rest).2 := by
  rw [translate, if_neg (by decide), if_pos rfl]

/-! ## Translated parts -/

/-- Behind this no word goes on, and no call or text begins. -/
def Behind (rest : List Char) : Prop := ∀ c ∈ rest.head?, c ∈ ')' :: marks

theorem behind_cons (hc : c ∈ ')' :: marks) (rest : List Char) : Behind (c :: rest) := by
  rintro _ ⟨⟩
  exact hc

theorem Behind.append {s : List Char} (hs : Behind s) (hrest : Behind rest) : Behind (s ++ rest) := by
  cases s with
  | nil => exact hrest
  | cons c s => exact behind_cons (hs c rfl) _

theorem Behind.isWordChar_eq_false (h : Behind rest) : ∀ c ∈ rest.head?, isWordChar c = false := by
  have hall : (')' :: marks).all (!isWordChar ·) = true := by decide
  exact fun c hc => by simpa using List.all_eq_true.mp hall c (h c hc)

theorem Behind.ne_textQuote (h : Behind rest) : ∀ c ∈ rest.head?, c ≠ textQuote := by
  have hall : (')' :: marks).all (· != textQuote) = true := by decide
  exact fun c hc => by simpa using List.all_eq_true.mp hall c (h c hc)

theorem Behind.head?_ne_open (h : Behind rest) : rest.head? ≠ some '(' := by
  intro hopen
  exact absurd (h '(' hopen) (by decide)

/-- The first text is translated to the second wherever it stands. -/
def Translates (d : Dialect) (qualifier : String → Option String) (s t : List Char) : Prop :=
  ∀ closings rest, Behind rest →
    d.translate qualifier closings (s ++ rest) = t ++ d.translate qualifier closings rest

namespace Translates

variable {s t s' t' : List Char}

theorem nil : d.Translates qualifier [] [] := fun _ _ _ => rfl

theorem append (h : d.Translates qualifier s t) (h' : d.Translates qualifier s' t') (hs' : Behind s') :
    d.Translates qualifier (s ++ s') (t ++ t') := by
  intro closings rest hrest
  rw [List.append_assoc, h _ _ (hs'.append hrest), h' _ _ hrest, List.append_assoc]

theorem mark (hc : c ∈ marks) (h : d.Translates qualifier s t) :
    d.Translates qualifier (c :: s) (c :: t) := by
  intro closings rest hrest
  rw [List.cons_append, translate_mark hc, h _ _ hrest, List.cons_append]

theorem group (h : d.Translates qualifier s t) :
    d.Translates qualifier ('(' :: s ++ [')']) ('(' :: t ++ [')']) := by
  intro closings rest hrest
  have hinner := h (")" :: closings) (')' :: rest) (behind_cons (by decide) _)
  rw [List.append_assoc, List.cons_append, translate_open, List.singleton_append, hinner, translate_close]
  simp

theorem ofWord (hword : ∀ c ∈ word, isWordChar c = true) (hne : word ≠ []) (htype : word ≠ typeKeyword) :
    d.Translates qualifier word (d.wordText qualifier word) := by
  intro closings rest hrest
  rw [translate_word hword hne hrest.isWordChar_eq_false, if_neg hrest.head?_ne_open, if_neg htype]

theorem column {table : Option String} {name : String} (hname : isPlainName name = true)
    (htable : qualifier name = table) :
    d.Translates qualifier name.toList ((Expr.column table name).text d.spelling).toList := by
  simp only [isPlainName, Bool.and_eq_true, Bool.not_eq_true', bne_iff_ne, ne_eq] at hname
  obtain ⟨⟨⟨hempty, hword⟩, hfree⟩, htype⟩ := hname
  have hne : name.toList ≠ [] := fun hnil => hempty (String.toList_inj.mp hnil)
  have htext : d.wordText qualifier name.toList = ((Expr.column table name).text d.spelling).toList := by
    rw [wordText, if_neg (by simp [hfree]), String.ofList_toList, htable]
  rw [← htext]
  exact ofWord (List.all_eq_true.mp hword) hne htype

theorem keyword {k : String} (hk : k ∈ keywords) : d.Translates qualifier k.toList k.toList := by
  have hall : ∀ k ∈ keywords,
      k.toList.all isWordChar = true ∧ k.toList ≠ [] ∧ k.toList ≠ typeKeyword := by
    decide
  obtain ⟨hword, hne, htype⟩ := hall k hk
  have htext : d.wordText qualifier k.toList = k.toList := by
    rw [wordText, if_pos]
    rw [isFixed, decide_eq_true (List.mem_map_of_mem hk), Bool.or_true]
  have htranslates : d.Translates qualifier k.toList (d.wordText qualifier k.toList) :=
    ofWord (List.all_eq_true.mp hword) hne htype
  rwa [htext] at htranslates

theorem number (n : Number) : d.Translates qualifier n.text.toList n.text.toList := by
  have hnumeral := isNumeral_number n
  have htype : n.text.toList ≠ typeKeyword := by
    intro heq
    rw [heq] at hnumeral
    exact absurd (hnumeral 'A' (by decide)) (by decide)
  have htext : d.wordText qualifier n.text.toList = n.text.toList := by
    rw [wordText, if_pos]
    rw [isFixed, isNumberText_number, Bool.true_or]
  have htranslates : d.Translates qualifier n.text.toList (d.wordText qualifier n.text.toList) :=
    ofWord (fun c hc => isWordChar_of_isNumeral (hnumeral c hc))
      (ne_nil_of_isNumberText (isNumberText_number n)) htype
  rwa [htext] at htranslates

theorem quoteText (text : String) : d.Translates qualifier (Spelling.plain.quoteText text).toList
    (d.spelling.quoteText text).toList := by
  intro closings rest hrest
  have hquoted : (Spelling.plain.quoteText text).toList =
      textQuote :: (text.toList.flatMap (doubled textQuote) ++ [textQuote]) := toList_quoted _ _ _
  have hread : readTextBody (text.toList.flatMap (doubled textQuote) ++ textQuote :: rest) = (text, rest) := by
    rw [readTextBody, readDoubled_doubled text.toList hrest.ne_textQuote, Option.getD_some, Prod.map,
      String.ofList_toList, id]
  rw [hquoted, List.cons_append, List.append_assoc, List.singleton_append, translate_quote, hread]

/-- What opens a call and what closes it are translated together. -/
theorem call (hword : ∀ c ∈ word, isWordChar c = true) (hne : word ≠ [])
    (htrunc : word ≠ "date_trunc".toList) (h : d.Translates qualifier s t) :
    d.Translates qualifier (word ++ '(' :: (s ++ [')']))
      ((d.around word).1.toList ++ t ++ (d.around word).2.toList) := by
  intro closings rest hrest
  have hinner := h ((d.around word).2 :: closings) (')' :: rest) (behind_cons (by decide) _)
  have hinput : word ++ '(' :: (s ++ [')']) ++ rest = word ++ '(' :: (s ++ ')' :: rest) := by simp
  rw [hinput, translate_word hword hne (by rintro _ ⟨⟩; rfl), List.head?_cons, if_pos rfl, if_neg htrunc,
    List.tail_cons, hinner, translate_close]
  simp only [List.append_assoc]

theorem median {arg arg' : String} (h : d.Translates qualifier arg.toList arg'.toList) :
    d.Translates qualifier (Spelling.plain.median arg).toList (d.spelling.median arg').toList := by
  have hword : ∀ c ∈ "MEDIAN".toList, isWordChar c = true := List.all_eq_true.mp rfl
  have hcall := call hword (by decide) (by decide) h
  have htext : Spelling.plain.median arg = "MEDIAN(" ++ arg ++ ")" := rfl
  rw [← String.toList_append, ← String.toList_append, ← median_eq] at hcall
  simpa [htext] using hcall

theorem dateTrunc (grain : TimeGrain) {arg arg' : String}
    (h : d.Translates qualifier arg.toList arg'.toList) :
    d.Translates qualifier (Spelling.plain.dateTrunc grain arg).toList
      (d.spelling.dateTrunc grain arg').toList := by
  intro closings rest hrest
  have hinput : (Spelling.plain.dateTrunc grain arg).toList ++ rest = "date_trunc".toList ++
      '(' :: textQuote :: (grain.name.toList ++ textQuote :: ',' :: ' ' :: (arg.toList ++ ')' :: rest)) := by
    simp [Spelling.plain, Spelling.duckdb, textQuote]
  have hinner := h ((d.aroundTrunc grain.name).2 :: closings) (')' :: rest) (behind_cons (by decide) _)
  rw [hinput, translate_word (List.all_eq_true.mp rfl) (by decide) (by rintro _ ⟨⟩; rfl), List.head?_cons,
    if_pos rfl, if_pos rfl, readGrain_name, hinner, translate_close, dateTrunc_eq]
  simp only [String.toList_append, List.append_assoc]

/-- Behind its argument a conversion has its type up to the parenthesis that closes it. -/
theorem cast {type arg arg' : String} (htype : Closed type)
    (h : d.Translates qualifier arg.toList arg'.toList) :
    d.Translates qualifier ("CAST(" ++ arg ++ " AS " ++ type ++ ")").toList
      ("CAST(" ++ arg' ++ " AS " ++ type ++ ")").toList := by
  intro closings rest hrest
  have hclosed : Closed (" " ++ type) := (by decide : Closed " ").append htype
  have hscan : scan none 0 (' ' :: type.toList) = some 0 := by simpa [Closed, Scans] using hclosed
  have hread : readType none 0 (' ' :: (type.toList ++ ')' :: rest)) = (' ' :: type.toList, ')' :: rest) :=
    readType_of_scan rest isSpot_none hscan
  have hinput : ("CAST(" ++ arg ++ " AS " ++ type ++ ")").toList ++ rest =
      "CAST".toList ++ '(' :: (arg.toList ++ ' ' :: (typeKeyword ++ ' ' :: (type.toList ++ ')' :: rest))) := by
    simp [typeKeyword]
  have hinner := h (")" :: closings) (' ' :: (typeKeyword ++ ' ' :: (type.toList ++ ')' :: rest)))
    (behind_cons (by decide) _)
  rw [hinput, translate_word (List.all_eq_true.mp rfl) (by decide) (by rintro _ ⟨⟩; rfl), List.head?_cons,
    if_pos rfl, if_neg (by decide), around_of_ne (by decide), List.tail_cons, hinner,
    translate_mark (by decide),
    translate_word (List.all_eq_true.mp rfl) (by decide) (by rintro _ ⟨⟩; rfl), if_neg (by simp), if_pos rfl,
    hread, translate_close]
  simp [typeKeyword]

theorem blank (h : d.Translates qualifier s t) : d.Translates qualifier (' ' :: s) (' ' :: t) :=
  h.mark (by decide)

/-- Texts that stand apart are translated each by itself. -/
theorem apart (h : d.Translates qualifier s t) (h' : d.Translates qualifier s' t') :
    d.Translates qualifier (s ++ ' ' :: s') (t ++ ' ' :: t') :=
  h.append h'.blank (behind_cons (by decide) _)

/-! ## Translated lists -/

theorem intercalate {texts texts' : List String}
    (h : List.Forall₂ (fun s t : String => d.Translates qualifier s.toList t.toList) texts texts') :
    d.Translates qualifier (", ".intercalate texts).toList (", ".intercalate texts').toList := by
  induction h with
  | nil => exact nil
  | cons hfirst hrest ih =>
    cases hrest with
    | nil => exact hfirst
    | cons hsecond hrest =>
      have hcomma := hfirst.append (ih.blank.mark (c := ',') (by decide)) (behind_cons (by decide) _)
      simpa [String.intercalate_cons_cons] using hcomma

theorem join {texts texts' : List String}
    (h : List.Forall₂ (fun s t : String => d.Translates qualifier s.toList t.toList) texts texts')
    (hbehind : ∀ text ∈ texts, Behind text.toList) :
    d.Translates qualifier (String.join texts).toList (String.join texts').toList ∧
      Behind (String.join texts).toList := by
  induction h with
  | nil => exact ⟨nil, nofun⟩
  | @cons first first' texts texts' hfirst hrest ih =>
    obtain ⟨hbehindFirst, hbehindRest⟩ := List.forall_mem_cons.mp hbehind
    obtain ⟨htranslates, hbehind⟩ := ih hbehindRest
    rw [String.join_cons, String.join_cons, String.toList_append, String.toList_append]
    exact ⟨hfirst.append htranslates hbehind, hbehindFirst.append hbehind⟩

mutual

theorem literal : ∀ v : Value,
    d.Translates qualifier (Spelling.plain.literal v).toList (d.spelling.literal v).toList
  | .scalar .null => keyword (by decide)
  | .scalar (.bool true) => keyword (by decide)
  | .scalar (.bool false) => keyword (by decide)
  | .scalar (.number n) => number n
  | .scalar (.text text) => quoteText text
  | .object members => quoteText (Value.object members).compact
  | .array items => intercalate (literals items)

theorem literals : ∀ vs : List Value,
    List.Forall₂ (fun s t : String => d.Translates qualifier s.toList t.toList)
      (Spelling.plain.literals vs) (d.spelling.literals vs)
  | [] => .nil
  | v :: vs => .cons (literal v) (literals vs)

end

/-! ## Translated calls -/

/-- Whether every dialect writes a call alike that opens so: with a word of its own and a parenthesis. -/
def opensAlike (opening : List Char) : Bool :=
  opening = opening.dropLast ++ ['('] && opening.dropLast.all isWordChar &&
    opening.dropLast ∉ [[], "date_trunc".toList, "MEDIAN".toList]

theorem alike {opening : String} (hopening : opensAlike opening.toList = true) {arg arg' : String}
    (h : d.Translates qualifier arg.toList arg'.toList) :
    d.Translates qualifier (opening ++ arg ++ ")").toList (opening ++ arg' ++ ")").toList := by
  simp only [opensAlike, Bool.and_eq_true, decide_eq_true_eq, List.mem_cons, List.not_mem_nil, or_false,
    not_or] at hopening
  obtain ⟨⟨hlast, hword⟩, hne, htrunc, hmedian⟩ := hopening
  have hcall := call (List.all_eq_true.mp hword) hne htrunc h
  rw [around_of_ne hmedian] at hcall
  rw [String.toList_append, String.toList_append, String.toList_append, String.toList_append, hlast]
  simpa using hcall

theorem functionCall {f : Function} (htypes : ∀ type ∈ f.castTypes, Closed type) {args args' : List String}
    (htakes : f.takes args.length = true)
    (h : List.Forall₂ (fun s t : String => d.Translates qualifier s.toList t.toList) args args') :
    d.Translates qualifier (Spelling.plain.call f args).toList (d.spelling.call f args').toList := by
  have hlist := intercalate h
  cases f with
  | lower => exact alike (by decide) hlist
  | upper => exact alike (by decide) hlist
  | coalesce => exact alike (by decide) hlist
  | concat => exact alike (by decide) hlist
  | nullIf =>
    have hopening : opensAlike "nullif(".toList = true := by decide
    rcases h with _ | ⟨_, _ | ⟨_, _ | _⟩⟩
    · simp [Function.takes] at htakes
    · simp [Function.takes] at htakes
    · simpa [Spelling.call] using alike hopening hlist
    · simp [Function.takes] at htakes
  | cast dataType =>
    rcases h with _ | ⟨harg, _ | _⟩
    · simp [Function.takes] at htakes
    · exact cast (htypes dataType List.mem_cons_self) harg
    · simp [Function.takes] at htakes
  | dateTrunc grain =>
    rcases h with _ | ⟨harg, _ | _⟩
    · simp [Function.takes] at htakes
    · exact dateTrunc grain harg
    · simp [Function.takes] at htakes

theorem aggregate (a : Aggregation) {arg arg' : String} (h : d.Translates qualifier arg.toList arg'.toList) :
    d.Translates qualifier (Spelling.plain.aggregate a arg).toList (d.spelling.aggregate a arg').toList := by
  cases a with
  | sum => exact alike (by decide) h
  | count => exact alike (by decide) h
  | min => exact alike (by decide) h
  | max => exact alike (by decide) h
  | avg => exact alike (by decide) h
  | countDistinct =>
    have hdistinct : d.Translates qualifier ("DISTINCT " ++ arg).toList ("DISTINCT " ++ arg').toList := by
      have hkeyword := (keyword (k := "DISTINCT") (by decide)).apart h
      simpa using hkeyword
    have hopening : opensAlike "COUNT(".toList = true := by decide
    have htext : ∀ (s : Spelling) (arg : String),
        s.aggregate .countDistinct arg = "COUNT(DISTINCT " ++ arg ++ ")" := fun _ _ => rfl
    rw [htext, htext]
    simpa using alike hopening hdistinct
  | median => exact median h

end Translates

/-! ## Translated expressions -/

/-- The description by the first expression is translated to the text of the second. -/
def TranslatesExpr (d : Dialect) (qualifier : String → Option String) (e e' : Expr) : Prop :=
  d.Translates qualifier (e.text .plain).toList (e'.text d.spelling).toList

theorem mem_marks_of_mem_symbol {op : Operator} (h : op.isComparison = true) :
    ∀ c ∈ op.symbol.toList, c ∈ marks := by
  intro c hc
  have hcomparing := Expr.isComparing_of_mem_symbol h c hc
  simp only [Expr.isComparing, Bool.or_eq_true, decide_eq_true_eq] at hcomparing
  rcases hcomparing with (rfl | rfl) | rfl <;> decide

theorem behind_symbol {op : Operator} (h : op.isComparison = true) (rest : List Char) :
    Behind (op.symbol.toList ++ rest) := by
  have hmarks := mem_marks_of_mem_symbol h
  obtain ⟨c, cs, hsymbol⟩ := List.exists_cons_of_ne_nil (Expr.toList_symbol_ne_nil op)
  rw [hsymbol] at hmarks ⊢
  exact behind_cons (List.mem_cons_of_mem _ (hmarks c List.mem_cons_self)) _

theorem Translates.comparing {op : Operator} (h : op.isComparison = true) {s t : List Char}
    (hs : d.Translates qualifier s t) :
    d.Translates qualifier (op.symbol.toList ++ s) (op.symbol.toList ++ t) := by
  have hmarks := mem_marks_of_mem_symbol h
  generalize op.symbol.toList = symbol at hmarks
  induction symbol with
  | nil => exact hs
  | cons c symbol ih =>
    obtain ⟨hc, hmarks⟩ := List.forall_mem_cons.mp hmarks
    exact .mark hc (ih hmarks)

theorem Translates.operator {op : Operator} (h : op.isComparison = false) :
    d.Translates qualifier op.symbol.toList op.symbol.toList := by
  have hkeyword : op.symbol ∈ keywords := by
    cases op with
    | like => decide
    | of op => cases op <;> first | decide | cases h
  exact .keyword hkeyword

namespace TranslatesExpr

variable {e e' left left' right right' : Expr}

theorem binary (op : Operator) (hleft : d.TranslatesExpr qualifier left left')
    (hright : d.TranslatesExpr qualifier right right') :
    d.TranslatesExpr qualifier (.binary op left right) (.binary op left' right') := by
  unfold TranslatesExpr
  by_cases hop : op.isComparison = true
  · have hcompared := hleft.append (.comparing hop hright) (behind_symbol hop _)
    simpa [Expr.text, hop] using hcompared
  · have hoperator : d.Translates qualifier op.symbol.toList op.symbol.toList :=
      .operator (by simpa using hop)
    have hgroup := (hleft.apart (hoperator.apart hright)).group
    simpa [Expr.text, hop] using hgroup

theorem literal (v : Value) : d.TranslatesExpr qualifier (.literal v) (.literal v) := Translates.literal v

/-- A condition is translated like what it is a condition on. -/
theorem on (k : Condition) (h : d.TranslatesExpr qualifier e e') :
    d.TranslatesExpr qualifier (k.on e) (k.on e') := by
  cases k with
  | compare op value => exact h.binary op (.literal value)
  | oneOf values negated =>
    have hvalues : d.Translates qualifier (", ".intercalate (Spelling.plain.literals values)).toList
        (", ".intercalate (d.spelling.literals values)).toList :=
      .intercalate (Translates.literals values)
    have hin := (Translates.keyword (k := "IN") (by decide)).apart hvalues.group
    unfold TranslatesExpr
    rw [Condition.on, Condition.on, Expr.text, Expr.text, texts_map_literal, texts_map_literal]
    cases negated with
    | false =>
      have hall := h.apart hin
      simpa using hall
    | true =>
      have hall := h.apart ((Translates.keyword (k := "NOT") (by decide)).apart hin)
      simpa using hall
  | between low high =>
    have hlow : d.Translates qualifier (Spelling.plain.literal low).toList (d.spelling.literal low).toList :=
      .literal low
    have hrange := hlow.apart ((Translates.keyword (k := "AND") (by decide)).apart (.literal high))
    have hall := h.apart ((Translates.keyword (k := "BETWEEN") (by decide)).apart hrange)
    unfold TranslatesExpr
    simpa [Condition.on, Expr.text] using hall
  | isNull negated =>
    have his : d.Translates qualifier "IS".toList "IS".toList := .keyword (by decide)
    have hnull : d.Translates qualifier "NULL".toList "NULL".toList := .keyword (by decide)
    unfold TranslatesExpr
    cases negated with
    | false =>
      have hall := h.apart (his.apart hnull)
      simpa [Condition.on, Expr.text] using hall
    | true =>
      have hnot := (Translates.keyword (k := "NOT") (by decide)).apart hnull
      have hall := h.apart (his.apart hnot)
      simpa [Condition.on, Expr.text] using hall

end TranslatesExpr

end Dialect

/-- The names of the columns are plain, and tell what qualifies them; the names of the types are closed. -/
structure Readable (qualifier : String → Option String) (columns : List ColumnRef) (types : List String) :
    Prop where
  plain : ∀ c ∈ columns, isPlainName c.2 = true
  qualified : ∀ c ∈ columns, qualifier c.2 = c.1
  closed : ∀ type ∈ types, Closed type

theorem readable_append {qualifier : String → Option String} {columns columns' : List ColumnRef}
    {types types' : List String} : Readable qualifier (columns ++ columns') (types ++ types') ↔
      Readable qualifier columns types ∧ Readable qualifier columns' types' := by
  constructor
  · rintro ⟨hplain, hqualified, hclosed⟩
    obtain ⟨hplain, hplain'⟩ := List.forall_mem_append.mp hplain
    obtain ⟨hqualified, hqualified'⟩ := List.forall_mem_append.mp hqualified
    obtain ⟨hclosed, hclosed'⟩ := List.forall_mem_append.mp hclosed
    exact ⟨⟨hplain, hqualified, hclosed⟩, hplain', hqualified', hclosed'⟩
  · rintro ⟨h, h'⟩
    exact ⟨List.forall_mem_append.mpr ⟨h.plain, h'.plain⟩,
      List.forall_mem_append.mpr ⟨h.qualified, h'.qualified⟩,
      List.forall_mem_append.mpr ⟨h.closed, h'.closed⟩⟩

end Sql

/-! ## Lowered expressions -/

namespace Expr

open Sql.Dialect

variable {d : Sql.Dialect} {qualifier : String → Option String}
  {qualify : Option String → Except Error (Option String)}

theorem behind_branchText {s : Sql.Spelling} {branches : List (Sql.Expr × Sql.Expr)} :
    ∀ text ∈ Sql.Expr.branchTexts s branches, Behind text.toList := by
  induction branches with
  | nil => exact nofun
  | cons branch branches ih =>
    refine List.forall_mem_cons.mpr ⟨?_, ih⟩
    simp only [String.toList_append, List.append_assoc]
    exact behind_cons (by decide) _

mutual

/-- The description of an expression is translated to the text of what it is lowered to. -/
theorem translates_of_lowerWith : ∀ {e : Expr} {e' : Sql.Expr}, e.lowerWith qualify = .ok e' →
    Sql.Readable qualifier e'.occurrences e'.castTypes → d.TranslatesExpr qualifier e.unqualified e'
  | .column table name, e', h, hreadable => by
    simp only [lowerWith, bind_eq_ok, pure_eq_ok] at h
    obtain ⟨q, -, rfl⟩ := h
    exact .column (hreadable.plain (q, name) List.mem_cons_self)
      (hreadable.qualified (q, name) List.mem_cons_self)
  | .literal l, e', h, _ => by
    simp only [lowerWith, pure_eq_ok] at h
    subst h
    exact .literal l.value
  | .call f args, e', h, hreadable => by
    simp only [lowerWith, bind_eq_ok, pure_eq_ok] at h
    obtain ⟨args', hargs, rfl⟩ := h
    have hlength : (args.map unqualified).length = args'.length := by
      rw [List.length_map, length_of_lowerAllWith hargs]
    rw [unqualified_call, TranslatesExpr, Sql.Expr.text, Sql.Expr.text]
    by_cases htakes : f.takes args'.length = true
    · rw [Sql.Expr.castTypes, if_pos htakes, Sql.Expr.occurrences] at hreadable
      obtain ⟨hf, hall⟩ := List.forall_mem_append.mp hreadable.closed
      refine .functionCall hf ?_
        (translates_of_lowerAllWith hargs ⟨hreadable.plain, hreadable.qualified, hall⟩)
      rwa [Sql.Expr.length_texts, hlength]
    · have hmisfit := Bool.eq_false_iff.mpr htakes
      rw [Sql.Spelling.call_of_not_takes _ (by rwa [Sql.Expr.length_texts, hlength]),
        Sql.Spelling.call_of_not_takes _ (by rwa [Sql.Expr.length_texts])]
      exact .keyword (by decide)
  | .aggregate a arg, e', h, hreadable => by
    simp only [lowerWith, bind_eq_ok, pure_eq_ok] at h
    obtain ⟨arg', harg, rfl⟩ := h
    exact .aggregate a (translates_of_lowerWith harg hreadable)
  | .case branches otherwise, e', h, hreadable => by
    simp only [lowerWith, bind_eq_ok, pure_eq_ok] at h
    obtain ⟨branches', hb, otherwise', ho, rfl⟩ := h
    obtain ⟨hbranches, hotherwise⟩ := Sql.readable_append.mp hreadable
    obtain ⟨hjoin, hbehind⟩ :=
      Translates.join (translates_of_lowerBranchesWith hb hbranches) behind_branchText
    have hend : d.Translates qualifier "END".toList "END".toList := .keyword (by decide)
    have helse := (Translates.keyword (k := "ELSE") (by decide)).apart
      ((translates_of_lowerWith ho hotherwise).apart hend)
    have hrest := hjoin.apart helse
    have hall := (Translates.keyword (k := "CASE") (by decide)).append hrest
      (hbehind.append (behind_cons (by decide) _))
    rw [unqualified_case, TranslatesExpr, Sql.Expr.text, Sql.Expr.text]
    simpa using hall
  | .binary op left right, e', h, hreadable => by
    simp only [lowerWith, bind_eq_ok, pure_eq_ok] at h
    obtain ⟨left', hl, right', hr, rfl⟩ := h
    obtain ⟨hleft, hright⟩ := Sql.readable_append.mp hreadable
    exact .binary (.of op) (translates_of_lowerWith hl hleft) (translates_of_lowerWith hr hright)

theorem translates_of_lowerAllWith : ∀ {es : List Expr} {es' : List Sql.Expr},
    lowerAllWith qualify es = .ok es' →
    Sql.Readable qualifier (Sql.Expr.occurrencesAll es') (Sql.Expr.allCastTypes es') →
    List.Forall₂ (fun s t : String => d.Translates qualifier s.toList t.toList)
      (Sql.Expr.texts .plain (es.map unqualified)) (Sql.Expr.texts d.spelling es')
  | [], es', h, _ => by
    simp only [lowerAllWith, pure_eq_ok] at h
    subst h
    exact .nil
  | e :: es, es', h, hreadable => by
    simp only [lowerAllWith, bind_eq_ok, pure_eq_ok] at h
    obtain ⟨e', he, es'', hes, rfl⟩ := h
    obtain ⟨hfirst, hrest⟩ := Sql.readable_append.mp hreadable
    exact .cons (translates_of_lowerWith he hfirst) (translates_of_lowerAllWith hes hrest)

theorem translates_of_lowerBranchesWith :
    ∀ {bs : List (Expr × Expr)} {bs' : List (Sql.Expr × Sql.Expr)}, lowerBranchesWith qualify bs = .ok bs' →
    Sql.Readable qualifier (Sql.Expr.occurrencesBranches bs') (Sql.Expr.branchCastTypes bs') →
    List.Forall₂ (fun s t : String => d.Translates qualifier s.toList t.toList)
      (Sql.Expr.branchTexts .plain (bs.map (Prod.map unqualified unqualified)))
      (Sql.Expr.branchTexts d.spelling bs')
  | [], bs', h, _ => by
    simp only [lowerBranchesWith, pure_eq_ok] at h
    subst h
    exact .nil
  | (condition, result) :: bs, bs', h, hreadable => by
    simp only [lowerBranchesWith, bind_eq_ok, pure_eq_ok] at h
    obtain ⟨condition', hc, result', hr, bs'', hbs, rfl⟩ := h
    obtain ⟨hfirst, hrest⟩ := Sql.readable_append.mp hreadable
    obtain ⟨hcondition, hresult⟩ := Sql.readable_append.mp hfirst
    have hthen := (translates_of_lowerWith hc hcondition).apart
      ((Translates.keyword (k := "THEN") (by decide)).apart (translates_of_lowerWith hr hresult))
    have hwhen := (Translates.keyword (k := "WHEN") (by decide)).apart hthen
    refine .cons ?_ (translates_of_lowerBranchesWith hbs hrest)
    simpa using hwhen.blank

end

end Expr

/-! ## Predicates -/

theorem Sql.Expr.allCastTypes_map_literal (values : List Value) :
    allCastTypes (values.map .literal) = [] := by
  induction values with
  | nil => rfl
  | cons v values ih => rw [List.map_cons, allCastTypes, ih, castTypes, List.append_nil]

theorem Sql.Expr.allWithoutQualifiers_map_literal (values : List Value) :
    allWithoutQualifiers (values.map .literal) = values.map .literal := by
  induction values with
  | nil => rfl
  | cons v values ih => rw [List.map_cons, allWithoutQualifiers, ih, withoutQualifiers]

theorem Condition.castTypes_on (k : Condition) (e : Sql.Expr) : (k.on e).castTypes = e.castTypes := by
  cases k with
  | compare op value => simp [on, Sql.Expr.castTypes]
  | oneOf values negated => simp [on, Sql.Expr.castTypes, Sql.Expr.allCastTypes_map_literal]
  | between low high => simp [on, Sql.Expr.castTypes]
  | isNull negated => simp [on, Sql.Expr.castTypes]

theorem Condition.withoutQualifiers_on (k : Condition) (e : Sql.Expr) :
    (k.on e).withoutQualifiers = k.on e.withoutQualifiers := by
  cases k with
  | compare op value => rfl
  | oneOf values negated =>
    rw [on, Sql.Expr.withoutQualifiers, Sql.Expr.allWithoutQualifiers_map_literal, on]
  | between low high => rfl
  | isNull negated => rfl

namespace Sql

/-- The first qualifier with which a column of the name stands among the columns. -/
def qualifierOf (columns : List ColumnRef) (name : String) : Option String :=
  (columns.find? (·.2 == name)).bind Prod.fst

/-- The columns and types of predicates that can be read off their descriptions: names are plain words, each of them
of columns with one qualifier, and the names of types are closed. -/
structure Legible (columns : List ColumnRef) (types : List String) : Prop where
  plain : ∀ c ∈ columns, isPlainName c.2 = true
  one_qualifier : ∀ c ∈ columns, ∀ c' ∈ columns, c.2 = c'.2 → c.1 = c'.1
  closed : ∀ type ∈ types, Closed type

theorem Legible.readable {columns : List ColumnRef} {types : List String} (h : Legible columns types) :
    Readable (qualifierOf columns) columns types := by
  refine ⟨h.plain, fun c hc => ?_, h.closed⟩
  have hfind : ∃ c', columns.find? (·.2 == c.2) = some c' := by
    rw [← Option.isSome_iff_exists, List.find?_isSome]
    exact ⟨c, hc, beq_self_eq_true _⟩
  obtain ⟨c', hc'⟩ := hfind
  have hname : c'.2 = c.2 := by simpa using List.find?_some hc'
  rw [qualifierOf, hc', Option.bind_some]
  exact h.one_qualifier c' (List.mem_of_find?_eq_some hc') c hc hname

end Sql

namespace Filter

variable {f f' : Filter} {scope scope' : Scope} {row row' : Restriction} {text : String}

/-- The description is the predicate without quotes and qualifiers. -/
theorem describe_of_resolve (hrow : f.resolve scope = .ok row) :
    f.describe = .ok (row.predicate.withoutQualifiers.text .plain) := by
  obtain ⟨e, he, k, hk, rfl⟩ := resolve_eq_ok.mp hrow
  have hpredicate : Restriction.predicate ⟨f.field.key, e, k⟩ = k.on e := rfl
  rw [hpredicate, k.withoutQualifiers_on, Expr.withoutQualifiers_of_lowerWith he, describe_of_condition hk]

theorem translates_describe {d : Sql.Dialect} {qualifier : String → Option String}
    (hrow : f.resolve scope = .ok row)
    (hreadable : Sql.Readable qualifier row.predicate.occurrences row.predicate.castTypes) :
    d.TranslatesExpr qualifier row.predicate.withoutQualifiers row.predicate := by
  obtain ⟨e, he, k, hk, rfl⟩ := resolve_eq_ok.mp hrow
  have hpredicate : Restriction.predicate ⟨f.field.key, e, k⟩ = k.on e := rfl
  rw [hpredicate] at hreadable ⊢
  rw [k.occurrences_on, k.castTypes_on] at hreadable
  rw [k.withoutQualifiers_on, Expr.withoutQualifiers_of_lowerWith he]
  exact (Expr.translates_of_lowerWith he hreadable).on k

/-- Legible predicates with one description have one text in every dialect. -/
theorem text_eq_of_description_eq (hrow : f.resolve scope = .ok row) (hrow' : f'.resolve scope' = .ok row')
    (hlegible : Sql.Legible (row.predicate.columns ++ row'.predicate.columns)
      (row.predicate.castTypes ++ row'.predicate.castTypes))
    (heq : row.predicate.withoutQualifiers.text .plain = row'.predicate.withoutQualifiers.text .plain)
    (d : Sql.Dialect) : row.predicate.text d.spelling = row'.predicate.text d.spelling := by
  have htranslated : ∀ {p : Sql.Expr} {qualifier : String → Option String},
      d.TranslatesExpr qualifier p.withoutQualifiers p →
        d.translate qualifier [] (p.withoutQualifiers.text .plain).toList = (p.text d.spelling).toList := by
    intro p qualifier h
    have hall := h [] [] nofun
    rwa [List.append_nil, Sql.Dialect.translate, List.append_nil] at hall
  obtain ⟨hreadable, hreadable'⟩ := Sql.readable_append.mp hlegible.readable
  have hoccurrences : ∀ {p : Sql.Expr} {qualifier : String → Option String},
      Sql.Readable qualifier p.columns p.castTypes → Sql.Readable qualifier p.occurrences p.castTypes := by
    intro p qualifier h
    exact ⟨fun c hc => h.plain c (Sql.Expr.mem_columns_iff.mpr hc),
      fun c hc => h.qualified c (Sql.Expr.mem_columns_iff.mpr hc), h.closed⟩
  have hfirst := htranslated (translates_describe hrow (hoccurrences hreadable))
  have hsecond := htranslated (translates_describe hrow' (hoccurrences hreadable'))
  rw [heq, hsecond] at hfirst
  exact (String.toList_inj.mp hfirst).symm

end Filter

end CubeSql
