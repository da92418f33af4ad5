import CubeSql.Text.Escaped
import CubeSql.Toml.Scalar

/-!
# TOML tokens

A TOML text as a list of tokens. Comments leave no token. A scanned text ends with `Token.broken` where
something is no token: an unfinished or ill-escaped quoted text, or a character that may not stand there.
-/

namespace CubeSql.Toml

/-- A token of a TOML text. -/
inductive Token where
  /-- An opening bracket. -/
  | openList
  /-- A closing bracket. -/
  | closeList
  /-- An opening brace. -/
  | openRecord
  /-- A closing brace. -/
  | closeRecord
  /-- A comma. -/
  | comma
  /-- An equals sign. -/
  | equals
  /-- The end of a line. -/
  | newline
  /-- White space within a line. -/
  | blank
  /-- An unquoted word: a key, several with dots between them, or a scalar. -/
  | word (chars : List Char)
  /-- A quoted text; one with three quotes on either side may have several lines. -/
  | quoted (text : String) (multiline : Bool)
  /-- No token. -/
  | broken
deriving DecidableEq, Repr, Inhabited

/-- The token that a single character makes. -/
def punctuation? (c : Char) : Option Token :=
  if c = '[' then some .openList
  else if c = ']' then some .closeList
  else if c = '\x7b' then some .openRecord
  else if c = '\x7d' then some .closeRecord
  else if c = ',' then some .comma
  else if c = '=' then some .equals
  else if c = '\n' then some .newline
  else none

/-- White space within a line. -/
def isSpace (c : Char) : Bool := c = ' ' || c = '\t'

/-- Whether a character may stand in an unquoted key. -/
def isKeyChar (c : Char) : Bool := c.isAlphanum || c = '_' || c = '-'

/-- Whether a character may stand in an unquoted word. -/
def isWordChar (c : Char) : Bool := isKeyChar c || c = '+' || c = '.' || c = ':'

/-- Whether a character may stand in comments and quoted texts: no control character but the tab. -/
def isPlain (c : Char) : Bool := c = '\t' || (0x20 ≤ c.toNat && c.toNat ≠ 0x7F)

/-! ## Quoted texts -/

/-- Whether a character may stand in a quoted text, where a text of several lines may have line ends. -/
def isContent (multiline : Bool) (c : Char) : Bool := isPlain c || (multiline && c = '\n')

/-- The character behind a backslash and a letter. -/
def unescape? (c : Char) : Option Char :=
  if c = '"' || c = '\\' then some c
  else if c = 'b' then some '\x08'
  else if c = 'f' then some '\x0c'
  else if c = 'n' then some '\n'
  else if c = 'r' then some '\r'
  else if c = 't' then some '\t'
  else none

/-- What follows a backslash at the end of a line: the next lines from their first character on that is no
white space. -/
def afterLineEnd? (text : List Char) : Option (List Char) :=
  match text.dropWhile isSpace with
  | '\n' :: rest => some (rest.dropWhile fun c => isSpace c || c = '\n')
  | _ => none

theorem length_of_afterLineEnd? {text rest : List Char} (h : afterLineEnd? text = some rest) :
    rest.length ≤ text.length := by
  unfold afterLineEnd? at h
  split at h
  · rename_i tail heq
    have h₁ : (text.dropWhile isSpace).length ≤ text.length := (List.dropWhile_suffix isSpace).length_le
    have h₂ : (tail.dropWhile fun c => isSpace c || c = '\n').length ≤ tail.length :=
      (List.dropWhile_suffix _).length_le
    have h₃ : (text.dropWhile isSpace).length = tail.length + 1 := by simp [heq]
    simp only [Option.some.injEq] at h
    subst h
    omega
  · simp at h

/-- What a quoted text with escapes denotes. -/
def unescaped? (multiline : Bool) : List Char → Option (List Char)
  | [] => some []
  | '\\' :: 'u' :: a :: b :: c :: d :: rest => do
    let code ← Text.charOfHex? [a, b, c, d]
    return code :: (← unescaped? multiline rest)
  | '\\' :: 'U' :: a :: b :: c :: d :: e :: f :: g :: h :: rest => do
    let code ← Text.charOfHex? [a, b, c, d, e, f, g, h]
    return code :: (← unescaped? multiline rest)
  | '\\' :: c :: rest =>
    match unescape? c with
    | some plain => (unescaped? multiline rest).map (plain :: ·)
    | none =>
      if multiline then
        match h : afterLineEnd? (c :: rest) with
        | some next =>
          have := length_of_afterLineEnd? h
          unescaped? multiline next
        | none => none
      else none
  | c :: rest =>
    if c ≠ '\\' && isContent multiline c then (unescaped? multiline rest).map (c :: ·) else none
termination_by text => text.length
decreasing_by all_goals (simp only [List.length_cons] at *; omega)

/-- Splits a text at three quotes in a row, none of them escaped. Up to two quotes right before the last
three belong to the text. -/
def untilThree (quote : Char) (escapes : Bool) : List Char → Option (List Char × List Char)
  | [] => none
  | c :: rest =>
    if escapes && c = '\\' then
      match rest with
      | [] => none
      | d :: rest => (untilThree quote escapes rest).map fun (inside, after) => (c :: d :: inside, after)
    else if c = quote then
      match rest with
      | c₂ :: c₃ :: rest =>
        if c₂ = quote && c₃ = quote then
          let more := (rest.take 2).takeWhile (· = quote)
          some (more, rest.drop more.length)
        else (untilThree quote escapes (c₂ :: c₃ :: rest)).map fun (inside, after) => (c :: inside, after)
      | _ => none
    else (untilThree quote escapes rest).map fun (inside, after) => (c :: inside, after)

theorem length_of_untilThree {quote : Char} {escapes : Bool} {text inside after : List Char}
    (h : untilThree quote escapes text = some (inside, after)) : after.length < text.length := by
  fun_induction untilThree quote escapes text generalizing inside with
  | case1 => simp at h
  | case2 => simp at h
  | case3 c _ d rest ih =>
    obtain ⟨⟨i, a⟩, hi, hp⟩ := Option.map_eq_some_iff.mp h
    simp only [Prod.mk.injEq] at hp
    have := @ih i (hp.2 ▸ hi)
    simp only [List.length_cons]
    omega
  | case4 =>
    simp only [Option.some.injEq, Prod.mk.injEq] at h
    rw [← h.2]
    simp only [List.length_cons, List.length_drop]
    omega
  | case5 _ _ _ _ _ ih =>
    obtain ⟨⟨i, a⟩, hi, hp⟩ := Option.map_eq_some_iff.mp h
    simp only [Prod.mk.injEq] at hp
    have := @ih i (hp.2 ▸ hi)
    simp only [List.length_cons] at *
    omega
  | case6 => simp at h
  | case7 _ _ _ _ ih =>
    obtain ⟨⟨i, a⟩, hi, hp⟩ := Option.map_eq_some_iff.mp h
    simp only [Prod.mk.injEq] at hp
    have := @ih i (hp.2 ▸ hi)
    simp only [List.length_cons]
    omega

/-- Splits a text at the next quote. -/
def untilOne (quote : Char) (text : List Char) : Option (List Char × List Char) :=
  match text.dropWhile (· ≠ quote) with
  | _ :: after => some (text.takeWhile (· ≠ quote), after)
  | [] => none

theorem length_of_untilOne {quote : Char} {text inside after : List Char}
    (h : untilOne quote text = some (inside, after)) : after.length < text.length := by
  unfold untilOne at h
  split at h
  · rename_i tail heq
    have h₁ := (List.dropWhile_suffix (l := text) fun c => decide (c ≠ quote)).length_le
    rw [heq] at h₁
    simp only [Option.some.injEq, Prod.mk.injEq] at h
    rw [← h.2]
    simp only [List.length_cons] at h₁
    omega
  · simp at h

/-- The content of a text of several lines; a line end right after the opening quotes is not part of it. -/
def withoutFirstLineEnd : List Char → List Char
  | '\n' :: rest => rest
  | text => text

/-- The token of a quoted text that denotes the given characters, if any. -/
def Token.ofQuoted (multiline : Bool) : Option (List Char) → Token
  | some chars => .quoted (String.ofList chars) multiline
  | none => .broken

/-- The characters of a text in which nothing is escaped. -/
def literal? (multiline : Bool) (inside : List Char) : Option (List Char) :=
  if inside.all (isContent multiline) then some inside else none

/-- Scans a quoted text: its token and what follows. There are quotes with and without escapes, and either
kind may be written three times around a text of several lines. -/
def quoted? : List Char → Option (Token × List Char)
  | '"' :: '"' :: '"' :: rest => do
    let (inside, after) ← untilThree '"' true rest
    return (.ofQuoted true (unescaped? true (withoutFirstLineEnd inside)), after)
  | '\x27' :: '\x27' :: '\x27' :: rest => do
    let (inside, after) ← untilThree '\x27' false rest
    return (.ofQuoted true (literal? true (withoutFirstLineEnd inside)), after)
  | '"' :: rest => do
    let (inside, after) ← Text.untilQuote rest
    return (.ofQuoted false (unescaped? false inside), after)
  | '\x27' :: rest => do
    let (inside, after) ← untilOne '\x27' rest
    return (.ofQuoted false (literal? false inside), after)
  | _ => none

theorem length_of_quoted? {text after : List Char} {token : Token} (h : quoted? text = some (token, after)) :
    after.length < text.length := by
  unfold quoted? at h
  split at h
  · obtain ⟨⟨i, a⟩, hi, hp⟩ := Option.bind_eq_some_iff.mp h
    simp only [Option.pure_def, Option.some.injEq, Prod.mk.injEq] at hp
    have := length_of_untilThree (hp.2 ▸ hi)
    simp only [List.length_cons]
    omega
  · obtain ⟨⟨i, a⟩, hi, hp⟩ := Option.bind_eq_some_iff.mp h
    simp only [Option.pure_def, Option.some.injEq, Prod.mk.injEq] at hp
    have := length_of_untilThree (hp.2 ▸ hi)
    simp only [List.length_cons]
    omega
  · obtain ⟨⟨i, a⟩, hi, hp⟩ := Option.bind_eq_some_iff.mp h
    simp only [Option.pure_def, Option.some.injEq, Prod.mk.injEq] at hp
    have := Text.length_of_untilQuote (hp.2 ▸ hi)
    simp only [List.length_cons]
    omega
  · obtain ⟨⟨i, a⟩, hi, hp⟩ := Option.bind_eq_some_iff.mp h
    simp only [Option.pure_def, Option.some.injEq, Prod.mk.injEq] at hp
    have := length_of_untilOne (hp.2 ▸ hi)
    simp only [List.length_cons]
    omega
  · simp at h

/-! ## Scanning -/

/-- Splits off an unquoted word after its first character. A date and a time of day with one space between
them are one word. -/
def splitWord (first : Char) (text : List Char) : List Char × List Char :=
  let word := first :: text.takeWhile isWordChar
  match text.dropWhile isWordChar with
  | ' ' :: rest =>
    let time := rest.takeWhile isWordChar
    if isDate word && isTimeWithOffset time then (word ++ ' ' :: time, rest.dropWhile isWordChar)
    else (word, ' ' :: rest)
  | rest => (word, rest)

theorem length_of_splitWord (first : Char) (text : List Char) :
    (splitWord first text).2.length ≤ text.length := by
  have h := (List.dropWhile_suffix (l := text) isWordChar).length_le
  unfold splitWord
  split
  · rename_i rest heq
    have h₁ := (List.dropWhile_suffix (l := rest) isWordChar).length_le
    rw [heq] at h
    simp only [List.length_cons] at h
    dsimp only
    split
    · dsimp only
      omega
    · simpa using h
  · exact h

/-- The tokens of a text whose lines end in line feeds. -/
def tokens : List Char → List Token
  | [] => []
  | c :: rest =>
    if isSpace c then .blank :: tokens rest
    else if c = '#' then
      have := (List.dropWhile_suffix (l := rest) isPlain).length_le
      match _h : rest.dropWhile isPlain with
      | [] => []
      | d :: after => if d = '\n' then .newline :: tokens after else [.broken]
    else if c = '"' || c = '\x27' then
      match h : quoted? (c :: rest) with
      | some (token, after) =>
        have := length_of_quoted? h
        token :: tokens after
      | none => [.broken]
    else
      match punctuation? c with
      | some token => token :: tokens rest
      | none =>
        if isWordChar c then
          have := length_of_splitWord c rest
          .word (splitWord c rest).1 :: tokens (splitWord c rest).2
        else [.broken]
termination_by text => text.length
decreasing_by all_goals simp_all only [List.length_cons] <;> omega

end CubeSql.Toml
