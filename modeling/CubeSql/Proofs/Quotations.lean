import CubeSql.Sql.Dialect

/-!
# Quotations read back

A quotation in a statement ends where the rules of its dialect end it: in DuckDB and PostgreSQL at the first
quote that is not doubled, in BigQuery at the first quote that no backslash precedes. Texts read back in every
dialect. Names read back in DuckDB and PostgreSQL, and in BigQuery exactly if they hold no backslash, as
nothing but the quotes in a name is escaped there.
-/

namespace CubeSql.Sql

/-! ## Readers -/

/-- Reads a quotation in which a doubled quote stands for one, from behind its first quote on: what is quoted,
and what follows. -/
def readDoubled (quote : Char) : List Char → Option (List Char × List Char)
  | [] => none
  | c :: rest =>
    if c = quote then
      match rest with
      | [] => some ([], [])
      | d :: rest =>
        if d = quote then (readDoubled quote rest).map (Prod.map (quote :: ·) id) else some ([], d :: rest)
    else (readDoubled quote rest).map (Prod.map (c :: ·) id)

/-- Reads a quotation in which a backslash stands before a character that it escapes, from behind its first
quote on: what is quoted, and what follows. Only some characters may be escaped. -/
def readBackslashed (quote : Char) (escapable : Char → Bool) : List Char → Option (List Char × List Char)
  | [] => none
  | c :: rest =>
    if c = '\\' then
      match rest with
      | [] => none
      | d :: rest =>
        if escapable d then (readBackslashed quote escapable rest).map (Prod.map (d :: ·) id) else none
    else if c = quote then some ([], rest)
    else (readBackslashed quote escapable rest).map (Prod.map (c :: ·) id)

/-- Reads a quotation from its first quote on. -/
def readOpened (quote : Char) (read : List Char → Option (List Char × List Char)) :
    List Char → Option (List Char × List Char)
  | [] => none
  | c :: rest => if c = quote then read rest else none

namespace Dialect

/-- Reads a quoted name: the name, and what follows. -/
def readName : Dialect → List Char → Option (List Char × List Char)
  | duckdb | postgres => readOpened nameQuote (readDoubled nameQuote)
  | bigquery => readOpened graveQuote (readBackslashed graveQuote fun _ => true)

/-- Reads a quoted text: the text, and what follows. -/
def readText : Dialect → List Char → Option (List Char × List Char)
  | duckdb | postgres => readOpened textQuote (readDoubled textQuote)
  | bigquery => readOpened textQuote (readBackslashed textQuote fun c => c = '\\' ∨ c = textQuote)

end Dialect

theorem toList_quoted (quote : Char) (escape : Char → List Char) (s : String) :
    (between quote (escapeWith escape s)).toList = quote :: (s.toList.flatMap escape ++ [quote]) := by
  simp [between, escapeWith]

/-! ## Doubled quotes -/

theorem readDoubled_cons_of_ne {quote c : Char} (h : c ≠ quote) (rest : List Char) :
    readDoubled quote (c :: rest) = (readDoubled quote rest).map (Prod.map (c :: ·) id) := by
  rw [readDoubled.eq_def]
  exact if_neg h

theorem readDoubled_doubled {quote : Char} (s : List Char) {rest : List Char}
    (hrest : ∀ c ∈ rest.head?, c ≠ quote) :
    readDoubled quote (s.flatMap (doubled quote) ++ quote :: rest) = some (s, rest) := by
  induction s with
  | nil =>
    cases rest with
    | nil => simp [readDoubled]
    | cons d rest =>
      have hd : d ≠ quote := hrest d rfl
      simp [readDoubled, hd]
  | cons c s ih =>
    by_cases hc : c = quote
    · subst hc
      simp [doubled, readDoubled, ih]
    · simp [doubled, hc, readDoubled_cons_of_ne hc, ih]

/-! ## Backslashes -/

section

variable {quote c : Char} {escapable : Char → Bool}

theorem readBackslashed_end (hne : quote ≠ '\\') (rest : List Char) :
    readBackslashed quote escapable (quote :: rest) = some ([], rest) := by
  rw [readBackslashed.eq_def]
  simp [hne]

theorem readBackslashed_escape (h : escapable c = true) (rest : List Char) :
    readBackslashed quote escapable ('\\' :: c :: rest) =
      (readBackslashed quote escapable rest).map (Prod.map (c :: ·) id) := by
  simp [readBackslashed, h]

theorem readBackslashed_cons_of_ne (hback : c ≠ '\\') (hquote : c ≠ quote) (rest : List Char) :
    readBackslashed quote escapable (c :: rest) =
      (readBackslashed quote escapable rest).map (Prod.map (c :: ·) id) := by
  rw [readBackslashed.eq_def]
  simp [hback, hquote]

/-- What is escaped reads back if the quote is escaped, and so is the backslash where there is any. -/
theorem readBackslashed_backslashed {special : List Char} (hne : quote ≠ '\\') (hquote : quote ∈ special)
    (hescapable : ∀ c ∈ special, escapable c = true) {s : List Char} (hs : '\\' ∈ s → '\\' ∈ special)
    (rest : List Char) :
    readBackslashed quote escapable (s.flatMap (backslashed special) ++ quote :: rest) = some (s, rest) := by
  induction s with
  | nil => exact readBackslashed_end hne rest
  | cons c s ih =>
    have htail := ih fun h => hs (List.mem_cons_of_mem _ h)
    by_cases hc : c ∈ special
    · simp [backslashed, hc, readBackslashed_escape (hescapable c hc), htail]
    · have hback : c ≠ '\\' := by
        rintro rfl
        exact hc (hs List.mem_cons_self)
      have hcquote : c ≠ quote := by
        rintro rfl
        exact hc hquote
      simp [backslashed, hc, readBackslashed_cons_of_ne hback hcquote, htail]

end

/-- Where only the quote is escaped, a backslash takes the next character with it, so that less is read than
was quoted. -/
theorem length_of_readBackslashed {quote : Char} (hne : quote ≠ '\\') :
    ∀ {s t : List Char},
      readBackslashed quote (fun _ => true) (s.flatMap (backslashed [quote]) ++ [quote]) = some (t, []) →
      t.length ≤ s.length ∧ ('\\' ∈ s → t.length < s.length)
  | [], t, h => by
    have ht : t = [] := by simpa [readBackslashed_end hne, eq_comm] using h
    simp [ht]
  | c :: s, t, h => by
    by_cases hc : c = '\\'
    · subst hc
      cases s with
      | nil => simp [backslashed, readBackslashed, hne.symm] at h
      | cons d s =>
        by_cases hd : d = quote
        -- The two backslashes make one, and the quote behind them ends the quotation.
        · subst hd
          simp [backslashed, readBackslashed_escape, readBackslashed_end hne, hne.symm] at h
        · simp only [List.flatMap_cons, backslashed, List.mem_singleton, hne.symm, hd, if_false,
            List.cons_append, List.nil_append, readBackslashed_escape, Option.map_eq_some_iff] at h
          obtain ⟨⟨u, rest⟩, hu, heq⟩ := h
          obtain ⟨rfl, rfl⟩ := Prod.mk.inj heq
          have hle : u.length ≤ s.length := (length_of_readBackslashed hne hu).1
          simp only [List.length_cons]
          omega
    · have hread : ∃ u, readBackslashed quote (fun _ => true)
          (s.flatMap (backslashed [quote]) ++ [quote]) = some (u, []) ∧ c :: u = t := by
        by_cases hquote : c = quote
        · simpa [backslashed, hquote, readBackslashed_escape] using h
        · simpa [backslashed, hquote, readBackslashed_cons_of_ne hc hquote] using h
      obtain ⟨u, hu, rfl⟩ := hread
      obtain ⟨hle, hlt⟩ := length_of_readBackslashed hne hu
      refine ⟨Nat.succ_le_succ hle, fun hmem => Nat.succ_lt_succ (hlt ?_)⟩
      exact (List.mem_cons.mp hmem).resolve_left (Ne.symm hc)

/-! ## Names and texts -/

namespace Dialect

/-- In DuckDB and PostgreSQL a name reads back whatever follows, except another quote. -/
theorem readName_quoteName {d : Dialect} (hd : d ≠ .bigquery) (name : String) {rest : List Char}
    (hrest : ∀ c ∈ rest.head?, c ≠ nameQuote) :
    d.readName ((d.spelling.quoteName name).toList ++ rest) = some (name.toList, rest) := by
  have hread : readOpened nameQuote (readDoubled nameQuote)
      ((between nameQuote (escapeWith (doubled nameQuote) name)).toList ++ rest) =
      some (name.toList, rest) := by
    rw [toList_quoted, List.cons_append, readOpened, if_pos rfl, List.append_assoc]
    exact readDoubled_doubled name.toList hrest
  cases d with
  | duckdb => exact hread
  | postgres => exact hread
  | bigquery => exact absurd rfl hd

theorem readName_quoteName_bigquery_iff (name : String) :
    bigquery.readName (bigquery.spelling.quoteName name).toList = some (name.toList, []) ↔
      '\\' ∉ name.toList := by
  have htext : bigquery.readName (bigquery.spelling.quoteName name).toList =
      readBackslashed graveQuote (fun _ => true)
        (name.toList.flatMap (backslashed [graveQuote]) ++ [graveQuote]) := by
    have hquoted : (bigquery.spelling.quoteName name).toList = _ := toList_quoted _ _ _
    rw [hquoted, readName, readOpened, if_pos rfl]
  rw [htext]
  constructor
  · intro h hmem
    exact absurd ((length_of_readBackslashed (by decide) h).2 hmem) (Nat.lt_irrefl _)
  · intro h
    exact readBackslashed_backslashed (by decide) (List.mem_singleton_self _) (fun _ _ => rfl)
      (fun hmem => absurd hmem h) []

/-- In every dialect a quoted text reads back. -/
theorem readText_quoteText (d : Dialect) (text : String) :
    d.readText (d.spelling.quoteText text).toList = some (text.toList, []) := by
  have hdoubled : readOpened textQuote (readDoubled textQuote)
      (between textQuote (escapeWith (doubled textQuote) text)).toList = some (text.toList, []) := by
    rw [toList_quoted, readOpened, if_pos rfl]
    exact readDoubled_doubled text.toList nofun
  cases d with
  | duckdb => exact hdoubled
  | postgres => exact hdoubled
  | bigquery =>
    have hquoted : (bigquery.spelling.quoteText text).toList =
        textQuote :: (text.toList.flatMap (backslashed ['\\', textQuote]) ++ [textQuote]) :=
      toList_quoted _ _ _
    rw [hquoted, readText, readOpened, if_pos rfl]
    exact readBackslashed_backslashed (by decide) (by decide) (List.all_eq_true.mp rfl) (fun _ => by decide) []

end Dialect

/-- A quoted name reads back in every dialect, and its quotation ends where its text ends, except that in
BigQuery this holds exactly for names without backslashes. -/
theorem names_read_back_iff (d : Dialect) (name : String) :
    d.readName (d.spelling.quoteName name).toList = some (name.toList, []) ↔
      (d = .bigquery → '\\' ∉ name.toList) := by
  by_cases hd : d = .bigquery
  · subst hd
    simpa using Dialect.readName_quoteName_bigquery_iff name
  · have hread : d.readName ((d.spelling.quoteName name).toList ++ []) = some (name.toList, []) :=
      Dialect.readName_quoteName hd name nofun
    rw [List.append_nil] at hread
    simp [hread, hd]

/-- In BigQuery the quotation of a name that ends in a backslash does not end. -/
theorem trailing_backslash_unclosed :
    Dialect.bigquery.readName (Dialect.bigquery.spelling.quoteName "a\\").toList = none := by
  decide

/-- A text reads back in every dialect, and so does the compact JSON text of an object: the quotation ends
where the text of the constant ends. -/
theorem texts_read_back (d : Dialect) :
    (∀ text, d.readText (d.spelling.literal (.text text)).toList = some (text.toList, [])) ∧
      ∀ members, d.readText (d.spelling.literal (.object members)).toList =
        some ((Value.object members).compact.toList, []) := by
  constructor
  · intro text
    have hliteral : d.spelling.literal (.text text) = d.spelling.quoteText text := rfl
    rw [hliteral, d.readText_quoteText]
  · intro members
    have hliteral : d.spelling.literal (.object members) =
        d.spelling.quoteText (Value.object members).compact := rfl
    rw [hliteral, d.readText_quoteText]

end CubeSql.Sql
