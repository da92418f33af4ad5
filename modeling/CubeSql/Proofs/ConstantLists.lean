import CubeSql.Proofs.Numerals
import CubeSql.Proofs.Plan
import CubeSql.Proofs.Quotations
import CubeSql.Proofs.Resolvable

/-!
# Constants in filters

A filter accepts a list if it has an item, and a range if it has two bounds, whatever the items and the bounds
are. A list among them is written as its items, and an empty one as nothing. So the constants of a filter are
all written exactly if there is no empty list among its values, at any depth, and a bound is one constant
exactly if it is no list, or holds one constant alone.
-/

namespace CubeSql

namespace Sql

/-! ## Reading lists -/

/-- Where a reader of a list is: outside of quotations, inside one, or there behind a backslash that takes the
next character with it. -/
inductive ListSpot where
  | outside | quoted | escaped
deriving DecidableEq, Repr, Inhabited

/-- Where a reader is behind a character; backslashes may take characters with them or not. -/
def ListSpot.after (escapes : Bool) : ListSpot → Char → ListSpot
  | outside, c => if c = textQuote then quoted else outside
  | quoted, c => if escapes ∧ c = '\\' then escaped else if c = textQuote then outside else quoted
  | escaped, _ => quoted

/-- Puts characters before the first entry. -/
def extendFirst (front : List Char) : List (List Char) → List (List Char)
  | [] => []
  | entry :: entries => (front ++ entry) :: entries

/-- Splits a text at its commas and leaves out its blanks, those in quotations apart. -/
def readEntries (escapes : Bool) : ListSpot → List Char → List (List Char)
  | _, [] => [[]]
  | spot, c :: rest =>
    if spot = .outside ∧ c = ',' then [] :: readEntries escapes .outside rest
    else if spot = .outside ∧ c = ' ' then readEntries escapes .outside rest
    else extendFirst [c] (readEntries escapes (spot.after escapes c) rest)

/-- The entries of a list, as a dialect reads them. -/
def Dialect.entries (d : Dialect) (text : String) : List String :=
  (readEntries (d = .bigquery) .outside text.toList).map String.ofList

variable {escapes : Bool}

theorem extendFirst_nil (entries : List (List Char)) : extendFirst [] entries = entries := by
  cases entries <;> rfl

theorem extendFirst_append (a b : List Char) (entries : List (List Char)) :
    extendFirst (a ++ b) entries = extendFirst a (extendFirst b entries) := by
  cases entries with
  | nil => rfl
  | cons entry entries => simp [extendFirst]

/-- The text stands in one entry and takes the reader from one spot to the other. -/
def InOneEntry (escapes : Bool) (a b : ListSpot) (s : List Char) : Prop :=
  ∀ rest, readEntries escapes a (s ++ rest) = extendFirst s (readEntries escapes b rest)

namespace InOneEntry

variable {a b c : ListSpot} {s t : List Char}

theorem nil : InOneEntry escapes a a [] := fun rest => by rw [List.nil_append, extendFirst_nil]

theorem append (hs : InOneEntry escapes a b s) (ht : InOneEntry escapes b c t) :
    InOneEntry escapes a c (s ++ t) := by
  intro rest
  rw [List.append_assoc, hs, ht, extendFirst_append]

theorem single {x : Char} (h : a = .outside → x ≠ ',' ∧ x ≠ ' ') (hafter : a.after escapes x = b) :
    InOneEntry escapes a b [x] := by
  subst hafter
  intro rest
  have hcomma : ¬ (a = .outside ∧ x = ',') := fun hx => (h hx.1).1 hx.2
  have hblank : ¬ (a = .outside ∧ x = ' ') := fun hx => (h hx.1).2 hx.2
  rw [List.cons_append, List.nil_append, readEntries, if_neg hcomma, if_neg hblank]

end InOneEntry

/-- The text is read as the entries, at the end of a list and before a comma. -/
structure ReadsAs (escapes : Bool) (s : List Char) (entries : List (List Char)) : Prop where
  last : readEntries escapes .outside s = entries
  next : ∀ rest, readEntries escapes .outside (s ++ ',' :: rest) =
    entries ++ readEntries escapes .outside rest

theorem readEntries_comma (rest : List Char) :
    readEntries escapes .outside (',' :: rest) = [] :: readEntries escapes .outside rest := by
  rw [readEntries, if_pos ⟨rfl, rfl⟩]

theorem readEntries_blank (rest : List Char) :
    readEntries escapes .outside (' ' :: rest) = readEntries escapes .outside rest := by
  rw [readEntries, if_neg (by decide), if_pos ⟨rfl, rfl⟩]

theorem InOneEntry.readsAs {s : List Char} (h : InOneEntry escapes .outside .outside s) :
    ReadsAs escapes s [s] where
  last := by
    have hlast := h []
    rw [List.append_nil] at hlast
    rw [hlast, readEntries, extendFirst, List.append_nil]
  next rest := by
    rw [h, readEntries_comma, extendFirst, List.append_nil]
    rfl

theorem readsAs_nil : ReadsAs escapes [] [[]] where
  last := by rw [readEntries]
  next rest := by
    rw [List.nil_append, readEntries_comma]
    rfl

theorem ReadsAs.append {s t : List Char} {entries more : List (List Char)} (hs : ReadsAs escapes s entries)
    (ht : ReadsAs escapes t more) : ReadsAs escapes (s ++ ", ".toList ++ t) (entries ++ more) where
  last := by
    have hsplit : s ++ ", ".toList ++ t = s ++ ',' :: (' ' :: t) := by simp
    rw [hsplit, hs.next, readEntries_blank, ht.last]
  next rest := by
    have hsplit : s ++ ", ".toList ++ t ++ ',' :: rest = s ++ ',' :: (' ' :: (t ++ ',' :: rest)) := by simp
    rw [hsplit, hs.next, readEntries_blank, ht.next, List.append_assoc]

/-! ## Constants -/

/-- The characters that neither end an entry nor open a quotation. -/
def isBare (c : Char) : Bool := c ≠ ',' && c ≠ ' ' && c ≠ textQuote

theorem isBare_iff {c : Char} : isBare c = true ↔ (c ≠ ',' ∧ c ≠ ' ') ∧ c ≠ textQuote := by
  simp [isBare]

theorem isBare_of_isNumeral {c : Char} (h : isNumeral c = true) : isBare c = true :=
  isBare_iff.mpr ⟨⟨ne_of_isNumeral h rfl, ne_of_isNumeral h rfl⟩, ne_of_isNumeral h rfl⟩

theorem inOneEntry_bare {s : List Char} (h : ∀ c ∈ s, isBare c = true) :
    InOneEntry escapes .outside .outside s := by
  induction s with
  | nil => exact .nil
  | cons c s ih =>
    obtain ⟨hbare, hs⟩ := List.forall_mem_cons.mp h
    obtain ⟨hinside, hquote⟩ := isBare_iff.mp hbare
    have hc : InOneEntry escapes .outside .outside [c] := .single (fun _ => hinside) (if_neg hquote)
    exact hc.append (ih hs)

/-- A quotation stands in one entry if what is written of each character leaves the reader inside. -/
theorem inOneEntry_quoted {escape : Char → List Char}
    (h : ∀ c, InOneEntry escapes .quoted .quoted (escape c)) (text : String) :
    InOneEntry escapes .outside .outside (between textQuote (escapeWith escape text)).toList := by
  have hopen : InOneEntry escapes .outside .quoted [textQuote] := .single (fun _ => by decide) rfl
  have hclose : InOneEntry escapes .quoted .outside [textQuote] := by
    refine .single nofun ?_
    rw [ListSpot.after, if_neg (fun hback => absurd hback.2 (by decide)), if_pos rfl]
  have hbody : ∀ s : List Char, InOneEntry escapes .quoted .quoted (s.flatMap escape) := by
    intro s
    induction s with
    | nil => exact .nil
    | cons c s ih => exact (h c).append ih
  rw [toList_quoted]
  exact hopen.append ((hbody text.toList).append hclose)

/-- A doubled quote ends its quotation and opens the next one. -/
theorem inOneEntry_doubled (c : Char) : InOneEntry false .quoted .quoted (doubled textQuote c) := by
  by_cases hc : c = textQuote
  · have hclose : InOneEntry false .quoted .outside [textQuote] := .single nofun rfl
    have hopen : InOneEntry false .outside .quoted [textQuote] := .single (fun _ => by decide) rfl
    rw [doubled, if_pos hc]
    exact hclose.append hopen
  · rw [doubled, if_neg hc]
    exact .single nofun (by simp [ListSpot.after, hc])

theorem inOneEntry_backslashed (c : Char) :
    InOneEntry true .quoted .quoted (backslashed ['\\', textQuote] c) := by
  by_cases hc : c ∈ ['\\', textQuote]
  · have hescape : InOneEntry true .quoted .escaped ['\\'] := .single nofun rfl
    have hescaped : InOneEntry true .escaped .quoted [c] := .single nofun rfl
    rw [backslashed, if_pos hc]
    exact hescape.append hescaped
  · rw [backslashed, if_neg hc]
    simp only [List.mem_cons, List.not_mem_nil, or_false, not_or] at hc
    exact .single nofun (by simp [ListSpot.after, hc.1, hc.2])

namespace Dialect

variable (d : Dialect)

theorem inOneEntry_quoteText (text : String) :
    InOneEntry (d = .bigquery) .outside .outside (d.spelling.quoteText text).toList := by
  cases d with
  | duckdb => exact inOneEntry_quoted inOneEntry_doubled text
  | postgres => exact inOneEntry_quoted inOneEntry_doubled text
  | bigquery => exact inOneEntry_quoted inOneEntry_backslashed text

theorem quoteText_ne_empty (text : String) : d.spelling.quoteText text ≠ "" := by
  intro hempty
  have hnil := congrArg String.toList hempty
  simp [Spelling.quoteText, between] at hnil

theorem inOneEntry_scalar (v : Scalar) :
    InOneEntry (d = .bigquery) .outside .outside (d.spelling.scalar v).toList := by
  cases v with
  | null => exact inOneEntry_bare (List.all_eq_true.mp (rfl : "NULL".toList.all isBare = true))
  | bool b =>
    cases b with
    | false => exact inOneEntry_bare (List.all_eq_true.mp (rfl : "false".toList.all isBare = true))
    | true => exact inOneEntry_bare (List.all_eq_true.mp (rfl : "true".toList.all isBare = true))
  | number n => exact inOneEntry_bare fun c hc => isBare_of_isNumeral (isNumeral_number n c hc)
  | text text => exact d.inOneEntry_quoteText text

end Dialect

end Sql

/-! ## Places -/

namespace Value

mutual

/-- What a value puts in the places of a list: a list puts its items there, or leaves a place empty. -/
def places : Value → List (Option Value)
  | .scalar v => [some (.scalar v)]
  | .object members => [some (.object members)]
  | .array [] => [none]
  | .array (v :: vs) => places v ++ placesAll vs

/-- What several values put in the places of a list. -/
def placesAll : List Value → List (Option Value)
  | [] => []
  | v :: vs => places v ++ placesAll vs

end

theorem places_ne_nil : ∀ v : Value, v.places ≠ []
  | .scalar _ => List.cons_ne_nil _ _
  | .object _ => List.cons_ne_nil _ _
  | .array [] => List.cons_ne_nil _ _
  | .array (v :: _) => List.append_ne_nil_of_left_ne_nil (places_ne_nil v) _

end Value

namespace Sql

/-- The text in a place, which may be empty. -/
def Spelling.place (s : Spelling) : Option Value → String
  | some c => s.literal c
  | none => ""

namespace Dialect

variable (d : Dialect)

theorem scalar_ne_empty (v : Scalar) : d.spelling.scalar v ≠ "" := by
  cases v with
  | null => exact (by decide : "NULL" ≠ "")
  | bool b =>
    cases b with
    | false => exact (by decide : "false" ≠ "")
    | true => exact (by decide : "true" ≠ "")
  | number n =>
    intro hempty
    exact ne_nil_of_isNumberText (isNumberText_number n) (congrArg String.toList hempty)
  | text text => exact d.quoteText_ne_empty text

mutual

/-- Only an empty place has no text. -/
theorem place_ne_empty : ∀ {v : Value}, ∀ c, some c ∈ v.places → d.spelling.place (some c) ≠ ""
  | .scalar v, _, h => by
    cases List.mem_singleton.mp h
    exact d.scalar_ne_empty v
  | .object members, _, h => by
    cases List.mem_singleton.mp h
    exact d.quoteText_ne_empty _
  | .array [], _, h => absurd (List.mem_singleton.mp h) nofun
  | .array (_ :: _), _, h => by
    rcases List.mem_append.mp h with hv | hvs
    · exact place_ne_empty _ hv
    · exact placeAll_ne_empty _ hvs

theorem placeAll_ne_empty : ∀ {vs : List Value}, ∀ c, some c ∈ Value.placesAll vs →
    d.spelling.place (some c) ≠ ""
  | _ :: _, _, h => by
    rcases List.mem_append.mp h with hv | hvs
    · exact place_ne_empty _ hv
    · exact placeAll_ne_empty _ hvs

end

mutual

/-- A constant is read as the texts in its places. -/
theorem readsAs_literal : ∀ v : Value, ReadsAs (d = .bigquery) (d.spelling.literal v).toList
    (v.places.map fun p => (d.spelling.place p).toList)
  | .scalar v => (d.inOneEntry_scalar v).readsAs
  | .object _ => (d.inOneEntry_quoteText _).readsAs
  | .array [] => readsAs_nil
  | .array (v :: vs) => readsAs_literals (List.cons_ne_nil v vs)

/-- Several constants with commas between them are read as the texts in all their places. -/
theorem readsAs_literals : ∀ {vs : List Value}, vs ≠ [] →
    ReadsAs (d = .bigquery) (", ".intercalate (d.spelling.literals vs)).toList
      ((Value.placesAll vs).map fun p => (d.spelling.place p).toList)
  | [], h => absurd rfl h
  | [v], _ => by
    have hv := readsAs_literal v
    rw [Value.placesAll, Value.placesAll, List.append_nil]
    exact hv
  | v :: w :: vs, _ => by
    have hrest := readsAs_literals (List.cons_ne_nil w vs)
    have hall := (readsAs_literal v).append hrest
    rw [Value.placesAll, List.map_append, Spelling.literals, Spelling.literals, String.intercalate_cons_cons,
      String.toList_append, String.toList_append]
    exact hall

end

/-- The entries of a constant are the texts in its places. -/
theorem entries_literal (v : Value) :
    d.entries (d.spelling.literal v) = v.places.map d.spelling.place := by
  rw [entries, (d.readsAs_literal v).last, List.map_map]
  exact List.map_congr_left fun p _ => String.ofList_toList

/-- The list has entries, none of them empty. -/
def ReadsConstants (text : String) : Prop := d.entries text ≠ [] ∧ "" ∉ d.entries text

/-- The text is a single entry that is not empty. -/
def ReadsConstant (text : String) : Prop := ∃ entry, entry ≠ "" ∧ d.entries text = [entry]

theorem readsConstants_literal_iff (v : Value) :
    d.ReadsConstants (d.spelling.literal v) ↔ none ∉ v.places := by
  rw [ReadsConstants, d.entries_literal, List.mem_map]
  constructor
  · intro h hnone
    exact h.2 ⟨none, hnone, rfl⟩
  · intro h
    refine ⟨fun hnil => v.places_ne_nil (List.map_eq_nil_iff.mp hnil), ?_⟩
    rintro ⟨p, hp, hempty⟩
    cases p with
    | none => exact h hp
    | some c => exact d.place_ne_empty c hp hempty

theorem exists_entry_iff (v : Value) :
    (∃ entry ∈ d.entries (d.spelling.literal v), entry ≠ "") ↔ ∃ c, some c ∈ v.places := by
  rw [d.entries_literal]
  constructor
  · rintro ⟨entry, hentry, hne⟩
    obtain ⟨p, hp, rfl⟩ := List.mem_map.mp hentry
    cases p with
    | none => exact absurd rfl hne
    | some c => exact ⟨c, hp⟩
  · rintro ⟨c, hc⟩
    exact ⟨_, List.mem_map_of_mem hc, d.place_ne_empty c hc⟩

theorem readsConstant_literal_iff (v : Value) :
    d.ReadsConstant (d.spelling.literal v) ↔ ∃ c, v.places = [some c] := by
  rw [ReadsConstant, d.entries_literal]
  constructor
  · rintro ⟨entry, hentry, hmap⟩
    obtain ⟨p, hp, rfl⟩ := List.map_eq_singleton_iff.mp hmap
    cases p with
    | none => exact absurd rfl hentry
    | some c => exact ⟨c, hp⟩
  · rintro ⟨c, hc⟩
    refine ⟨d.spelling.place (some c), d.place_ne_empty c (v := v) ?_, by rw [hc]; rfl⟩
    rw [hc]
    exact List.mem_singleton_self _

/-! ## Predicates -/

/-- The predicate asks whether the subject is in the list that the value stands for, or is not. -/
structure WritesList (predicate subject : String) (negated : Bool) (v : Value) : Prop where
  text : predicate = subject ++ (if negated then " NOT IN (" else " IN (") ++ d.spelling.literal v ++ ")"
  /-- The list has the texts of the value's places. -/
  entries : d.entries (d.spelling.literal v) = v.places.map d.spelling.place
  /-- Anything is written in it exactly if there is a constant in any of them. -/
  written_iff : (∃ entry ∈ d.entries (d.spelling.literal v), entry ≠ "") ↔ ∃ c, some c ∈ v.places
  /-- It is complete exactly if none of them is empty. -/
  complete_iff : d.ReadsConstants (d.spelling.literal v) ↔ none ∉ v.places

/-- The predicate asks whether the subject lies between the two values. -/
structure WritesRange (predicate subject : String) (low high : Value) : Prop where
  text : predicate =
    subject ++ " BETWEEN " ++ d.spelling.literal low ++ " AND " ++ d.spelling.literal high
  /-- A bound is one constant exactly if its value is one, lists around it apart. -/
  single_iff : ∀ bound ∈ [low, high],
    (d.ReadsConstant (d.spelling.literal bound) ↔ ∃ c, bound.places = [some c])

end Dialect

theorem texts_map_literal (s : Spelling) (vs : List Value) : Expr.texts s (vs.map .literal) = s.literals vs := by
  induction vs with
  | nil => rfl
  | cons v vs ih => rw [List.map_cons, Expr.texts, ih, Expr.text, Spelling.literals]

end Sql

namespace Filter

/-- The constants of a list are written as the value that they are listed from. -/
theorem intercalate_listed (s : Sql.Spelling) {v : Value} (h : (listed v).isEmpty = false) :
    ", ".intercalate (s.literals (listed v)) = s.literal v := by
  match v with
  | .array _ => rfl
  | .object _ => rfl
  | .scalar .null => exact absurd h (by decide)
  | .scalar (.bool _) => rfl
  | .scalar (.number _) => rfl
  | .scalar (.text _) => rfl

theorem conditionOf_of_condition {f : Filter} {k : Condition} (h : f.condition = .ok k) :
    conditionOf f.op f.value.value = .ok k := by
  unfold condition at h
  cases hk : conditionOf f.op f.value.value with
  | error fault =>
    rw [hk] at h
    cases h
  | ok k' =>
    rw [hk] at h
    cases h
    rfl

/-- A list filter is about the constants listed from its value. -/
theorem eq_oneOf_of_condition {f : Filter} {k : Condition} (h : f.condition = .ok k)
    (hop : f.op = .isIn ∨ f.op = .notIn) :
    (listed f.value.value).isEmpty = false ∧ k = .oneOf (listed f.value.value) (f.op = .notIn) := by
  have hk := conditionOf_of_condition h
  rcases hop with hop | hop
  · rw [hop, conditionOf] at hk
    split_ifs at hk with hempty
    cases hk
    exact ⟨Bool.eq_false_iff.mpr hempty, by rw [hop]; rfl⟩
  · rw [hop, conditionOf] at hk
    split_ifs at hk with hempty
    cases hk
    exact ⟨Bool.eq_false_iff.mpr hempty, by rw [hop]; rfl⟩

theorem eq_between_of_condition {f : Filter} {k : Condition} (h : f.condition = .ok k)
    (hop : f.op = .between) : ∃ low high, f.value.value = .array [low, high] ∧ k = .between low high := by
  have htakes := exists_condition_iff.mp ⟨k, h⟩
  rw [hop] at htakes
  obtain ⟨low, high, hvalue⟩ := htakes
  have hk := conditionOf_of_condition h
  rw [hop, hvalue, conditionOf] at hk
  cases hk
  exact ⟨low, high, hvalue, rfl⟩

end Filter

/-- Whatever a filter that is accepted is about, in every dialect its list is complete exactly if the value
holds no empty list, and each bound of its range is one constant exactly if its value is one, lists around it
apart. -/
theorem filter_constants_complete_iff {f : Filter} {k : Condition} (h : f.condition = .ok k) (d : Sql.Dialect)
    (e : Sql.Expr) :
    (f.op = .isIn ∨ f.op = .notIn → d.WritesList ((k.on e).text d.spelling) (e.text d.spelling)
        (f.op = .notIn) f.value.value) ∧
      (f.op = .between → ∃ low high, f.value.value = .array [low, high] ∧
        d.WritesRange ((k.on e).text d.spelling) (e.text d.spelling) low high) := by
  constructor
  · intro hop
    obtain ⟨hlisted, rfl⟩ := Filter.eq_oneOf_of_condition h hop
    refine ⟨?_, d.entries_literal _, d.exists_entry_iff _, d.readsConstants_literal_iff _⟩
    rw [Condition.on, Sql.Expr.text, Sql.texts_map_literal, Filter.intercalate_listed _ hlisted]
  · intro hop
    obtain ⟨low, high, hvalue, rfl⟩ := Filter.eq_between_of_condition h hop
    exact ⟨low, high, hvalue, rfl, fun bound _ => d.readsConstant_literal_iff bound⟩

/-- Countries, two of them in a list of their own. -/
def Filter.nestedCountries : Filter :=
  ⟨.country, .notIn, .ofValue (.array [.text "FR", .array [.text "DE, AT", .text "CH"]])⟩

/-- The days of a month, the last of them in a list of its own. -/
def Filter.nestedDays : Filter :=
  ⟨.day, .between, .ofValue (.array [.text "2024-01-01", .array [.text "2024-01-31"]])⟩

theorem filter_constants_complete_iff_nested :
    (∃ k, Filter.nestedCountries.condition = .ok k ∧
      (k.on (.column none "country")).text .bigquery = "`country` NOT IN ('FR', 'DE, AT', 'CH')" ∧
      Sql.Dialect.bigquery.ReadsConstants "'FR', 'DE, AT', 'CH'") ∧
      ∃ k, Filter.nestedDays.condition = .ok k ∧
        (k.on (.column none "day")).text .bigquery = "`day` BETWEEN '2024-01-01' AND '2024-01-31'" ∧
        Sql.Dialect.bigquery.ReadsConstant "'2024-01-31'" := by
  obtain ⟨k, hk⟩ : ∃ k, Filter.nestedCountries.condition = .ok k := exists_of_isOk (by decide)
  obtain ⟨k', hk'⟩ : ∃ k, Filter.nestedDays.condition = .ok k := exists_of_isOk (by decide)
  have hlist := (filter_constants_complete_iff hk .bigquery (.column none "country")).1 (.inr rfl)
  obtain ⟨low, high, hvalue, hrange⟩ :=
    (filter_constants_complete_iff hk' .bigquery (.column none "day")).2 rfl
  have hdays : Filter.nestedDays.value.value = .array [.text "2024-01-01", .array [.text "2024-01-31"]] := rfl
  rw [hdays] at hvalue
  obtain ⟨rfl, rfl⟩ : .text "2024-01-01" = low ∧ .array [.text "2024-01-31"] = high := by
    simpa using Value.array.inj hvalue
  have hplaces : none ∉ Filter.nestedCountries.value.value.places := by
    have hcountries : Filter.nestedCountries.value.value.places =
        [some (.text "FR"), some (.text "DE, AT"), some (.text "CH")] := rfl
    simp [hcountries]
  have hbound := (hrange.single_iff (.array [.text "2024-01-31"]) (by simp)).mpr ⟨.text "2024-01-31", rfl⟩
  exact ⟨⟨k, hk, hlist.text, hlist.complete_iff.mpr hplaces⟩, k', hk', hrange.text, hbound⟩

/-- An empty list is accepted as an item, and a list as a bound: then the list lacks its only constant, and one
bound is two constants. -/
theorem nested_lists_accepted :
    (∃ k, Filter.condition ⟨.country, .isIn, .ofValue (.array [.array []])⟩ = .ok k ∧
      (k.on (.column none "country")).text .duckdb = "\"country\" IN ()") ∧
      ∃ k, Filter.condition ⟨.day, .between, .ofValue (.array [.array [.int 1, .int 2], .int 3])⟩ = .ok k ∧
        (k.on (.column none "day")).text .duckdb = "\"day\" BETWEEN 1, 2 AND 3" :=
  ⟨⟨_, rfl, by decide⟩, _, rfl, by decide⟩

end CubeSql
