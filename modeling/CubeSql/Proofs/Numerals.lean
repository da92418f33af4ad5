import CubeSql.Json.Compact
import Mathlib.Tactic.SplitIfs

/-!
# The form of numbers

A number is written as digits, behind a minus sign or not, and behind them perhaps a point with more digits,
and perhaps the mark of an exponent with its sign and its digits.
-/

namespace CubeSql

/-! ## The form -/

/-- What is behind the digits that a text begins with, if it begins with any. -/
def afterDigits? (s : List Char) : Option (List Char) :=
  if s.head?.any Char.isDigit then some (s.dropWhile Char.isDigit) else none

/-- Whether a text is an exponent, or nothing. -/
def isExponent : List Char → Bool
  | [] => true
  | [_] => false
  | mark :: sign :: digits => mark = 'e' && (sign = '+' || sign = '-') && afterDigits? digits = some []

/-- Whether a text may stand behind the first digits of a number: decimals, an exponent, both or nothing. -/
def isFraction (s : List Char) : Bool :=
  if s.head? = some '.' then (afterDigits? s.tail).any isExponent else isExponent s

/-- Whether a text has the form of a number without a sign. -/
def isUnsigned (s : List Char) : Bool := (afterDigits? s).any isFraction

/-- Whether a text has the form of a number. -/
def isNumberText (s : List Char) : Bool := isUnsigned (if s.head? = some '-' then s.tail else s)

variable {digits rest s : List Char}

theorem dropWhile_append_eq {p : Char → Bool} {word rest : List Char} (hword : ∀ c ∈ word, p c = true)
    (hrest : ∀ c ∈ rest.head?, p c = false) : (word ++ rest).dropWhile p = rest := by
  rw [List.dropWhile_append_of_pos hword]
  cases rest with
  | nil => rfl
  | cons c rest =>
    have hc : ¬ p c = true := by simp [hrest c rfl]
    rw [List.dropWhile_cons_of_neg hc]

theorem afterDigits?_append (hdigits : ∀ c ∈ digits, c.isDigit = true) (hne : digits ≠ [])
    (hrest : ∀ c ∈ rest.head?, c.isDigit = false) : afterDigits? (digits ++ rest) = some rest := by
  rw [afterDigits?, dropWhile_append_eq hdigits hrest, if_pos]
  obtain ⟨c, cs, rfl⟩ := List.exists_cons_of_ne_nil hne
  exact hdigits c List.mem_cons_self

theorem isDigit_head?_of_isExponent (h : isExponent rest = true) : ∀ c ∈ rest.head?, c.isDigit = false := by
  rintro c hc
  match rest with
  | mark :: sign :: digits =>
    cases hc
    simp only [isExponent, Bool.and_eq_true, decide_eq_true_eq] at h
    rw [h.1.1]
    rfl

theorem isDigit_head?_of_isFraction (h : isFraction rest = true) : ∀ c ∈ rest.head?, c.isDigit = false := by
  unfold isFraction at h
  split_ifs at h with hpoint
  · rw [hpoint]
    rintro _ ⟨⟩
    rfl
  · exact isDigit_head?_of_isExponent h

theorem isUnsigned_append (hdigits : ∀ c ∈ digits, c.isDigit = true) (hne : digits ≠ [])
    (hrest : isFraction rest = true) : isUnsigned (digits ++ rest) = true := by
  rw [isUnsigned, afterDigits?_append hdigits hne (isDigit_head?_of_isFraction hrest)]
  exact hrest

theorem isUnsigned_digits (hdigits : ∀ c ∈ digits, c.isDigit = true) (hne : digits ≠ []) :
    isUnsigned digits = true := by
  rw [← List.append_nil digits]
  exact isUnsigned_append hdigits hne rfl

theorem isFraction_point (hdigits : ∀ c ∈ digits, c.isDigit = true) (hne : digits ≠ [])
    (hrest : isExponent rest = true) : isFraction ('.' :: (digits ++ rest)) = true := by
  rw [isFraction, List.head?_cons, if_pos rfl, List.tail_cons,
    afterDigits?_append hdigits hne (isDigit_head?_of_isExponent hrest)]
  exact hrest

theorem isFraction_decimals (hdigits : ∀ c ∈ digits, c.isDigit = true) (hne : digits ≠ []) :
    isFraction ('.' :: digits) = true := by
  rw [← List.append_nil digits]
  exact isFraction_point hdigits hne rfl

theorem isExponent_mark {sign : Char} (hsign : sign = '+' ∨ sign = '-')
    (hdigits : ∀ c ∈ digits, c.isDigit = true) (hne : digits ≠ []) :
    isExponent ('e' :: sign :: digits) = true := by
  have hall : afterDigits? (digits ++ []) = some [] := afterDigits?_append hdigits hne nofun
  rw [List.append_nil] at hall
  simp [isExponent, hsign, hall]

theorem isNumberText_of_isUnsigned (h : isUnsigned s = true) : isNumberText s = true := by
  have hhead : s.head? ≠ some '-' := by
    intro hminus
    rw [isUnsigned, afterDigits?, hminus] at h
    cases h
  rwa [isNumberText, if_neg hhead]

theorem isNumberText_minus (h : isUnsigned s = true) : isNumberText ('-' :: s) = true := h

/-! ## Texts of numbers -/

theorem isDigit_toDigits (n : Nat) : ∀ c ∈ Nat.toDigits 10 n, c.isDigit = true :=
  fun _ hc => Nat.isDigit_of_mem_toDigits (by decide) (by decide) hc

theorem isExponent_toDigits (exponent : Int) : isExponent
    ('e' :: (if exponent < 0 then '-' else '+') :: Nat.toDigits 10 exponent.natAbs) = true := by
  refine isExponent_mark ?_ (isDigit_toDigits _) Nat.toDigits_ne_nil
  split_ifs
  · exact .inr rfl
  · exact .inl rfl

/-- Behind its first digit a number with an exponent has the other digits as decimals, if there are any. -/
theorem isFraction_scientific (hdigits : ∀ c ∈ digits, c.isDigit = true) (hrest : isExponent rest = true)
    (hpoint : rest.head? ≠ some '.') :
    isFraction ((if digits.length ≤ 1 then [] else '.' :: digits.drop 1) ++ rest) = true := by
  split_ifs with hsingle
  · rwa [List.nil_append, isFraction, if_neg hpoint]
  · refine isFraction_point (fun c hc => hdigits c (List.mem_of_mem_drop hc)) ?_ hrest
    rwa [ne_eq, List.drop_eq_nil_iff]

theorem isUnsigned_layout (d : Decimal) : isUnsigned (Binary64.layout d).toList = true := by
  have hdigits := isDigit_toDigits d.digits
  have hne : Nat.toDigits 10 d.digits ≠ [] := Nat.toDigits_ne_nil
  have hzeros : ∀ n, ∀ c ∈ List.replicate n '0', c.isDigit = true := by
    intro n c hc
    rw [List.eq_of_mem_replicate hc]
    rfl
  have htake : ∀ n, ∀ c ∈ (Nat.toDigits 10 d.digits).take n, c.isDigit = true :=
    fun n c hc => hdigits c (List.mem_of_mem_take hc)
  have hdrop : ∀ n, ∀ c ∈ (Nat.toDigits 10 d.digits).drop n, c.isDigit = true :=
    fun n c hc => hdigits c (List.mem_of_mem_drop hc)
  have htake_ne : ∀ n ≠ 0, (Nat.toDigits 10 d.digits).take n ≠ [] := by
    intro n hn htaken
    exact (List.take_eq_nil_iff.mp htaken).elim hn hne
  unfold Binary64.layout
  dsimp only
  split
  · split
    · -- the point stands before all digits
      rw [String.toList_ofList]
      show isUnsigned (['0'] ++ '.' :: _) = true
      exact isUnsigned_append (List.forall_mem_singleton.mpr rfl) (List.cons_ne_nil _ _)
        (isFraction_decimals (List.forall_mem_append.mpr ⟨hzeros _, hdigits⟩)
          (List.append_ne_nil_of_right_ne_nil _ hne))
    · next hpoint =>
      split
      · -- the point stands behind all digits
        rw [String.toList_ofList]
        exact isUnsigned_append (List.forall_mem_append.mpr ⟨hdigits, hzeros _⟩)
          (List.append_ne_nil_of_left_ne_nil hne _) (by decide)
      · next hwhole =>
        -- the point stands among the digits
        rw [String.toList_ofList]
        refine isUnsigned_append (htake _) (htake_ne _ (by omega)) (isFraction_decimals (hdrop _) ?_)
        rw [ne_eq, List.drop_eq_nil_iff]
        omega
  · -- the number has an exponent
    rw [String.toList_ofList, List.append_assoc]
    exact isUnsigned_append (htake 1) (htake_ne 1 Nat.one_ne_zero)
      (isFraction_scientific hdigits (isExponent_toDigits _) (by simp))

theorem isUnsigned_toString_nat (n : Nat) : isUnsigned (toString n).toList = true := by
  rw [Nat.toString_eq_ofList_toDigits, String.toList_ofList]
  exact isUnsigned_digits (isDigit_toDigits n) Nat.toDigits_ne_nil

theorem isNumberText_toString_int (n : Int) : isNumberText (toString n).toList = true := by
  cases n with
  | ofNat n =>
    have htext : toString (Int.ofNat n) = toString n := rfl
    rw [htext]
    exact isNumberText_of_isUnsigned (isUnsigned_toString_nat n)
  | negSucc n =>
    have htext : toString (Int.negSucc n) = "-" ++ toString (n + 1) := rfl
    rw [htext, String.toList_append]
    exact isNumberText_minus (isUnsigned_toString_nat (n + 1))

/-- Every number is written in the form of numbers. -/
theorem isNumberText_number (n : Number) : isNumberText n.text.toList = true := by
  cases n with
  | int n => exact isNumberText_toString_int n
  | float x =>
    have hmagnitude : isUnsigned (if x.isZero then "0.0" else Binary64.layout x.shortest).toList = true := by
      split_ifs
      · decide
      · exact isUnsigned_layout _
    rw [Number.text, Binary64.text]
    by_cases hnegative : x.negative = true
    · rw [if_pos hnegative, String.toList_append]
      exact isNumberText_minus hmagnitude
    · rw [if_neg hnegative]
      exact isNumberText_of_isUnsigned hmagnitude

/-! ## Characters of numbers -/

/-- The characters with which numbers are written. -/
def isNumeral (c : Char) : Bool := c.isDigit || c ∈ ['-', '+', '.', 'e']

theorem ne_of_isNumeral {c x : Char} (h : isNumeral c = true) (hx : isNumeral x = false) : c ≠ x := by
  rintro rfl
  rw [h] at hx
  cases hx

/-- Digits are numerals, so a text is numerals if what is behind its digits is. -/
theorem isNumeral_of_afterDigits? (h : afterDigits? s = some rest)
    (hrest : ∀ c ∈ rest, isNumeral c = true) : ∀ c ∈ s, isNumeral c = true := by
  unfold afterDigits? at h
  split_ifs at h
  cases h
  intro c hc
  rw [← List.takeWhile_append_dropWhile (p := Char.isDigit) (l := s), List.mem_append] at hc
  rcases hc with hc | hc
  · rw [isNumeral, List.all_eq_true.mp List.all_takeWhile c hc, Bool.true_or]
  · exact hrest c hc

theorem isNumeral_of_isExponent (h : isExponent s = true) : ∀ c ∈ s, isNumeral c = true := by
  match s with
  | [] => exact nofun
  | mark :: sign :: digits =>
    simp only [isExponent, Bool.and_eq_true, Bool.or_eq_true, decide_eq_true_eq] at h
    obtain ⟨⟨rfl, hsign⟩, hdigits⟩ := h
    refine List.forall_mem_cons.mpr ⟨rfl, List.forall_mem_cons.mpr ⟨?_, ?_⟩⟩
    · rcases hsign with rfl | rfl <;> rfl
    · exact isNumeral_of_afterDigits? hdigits nofun

theorem isNumeral_of_isFraction (h : isFraction s = true) : ∀ c ∈ s, isNumeral c = true := by
  unfold isFraction at h
  split_ifs at h with hpoint
  · obtain ⟨rest, hdigits, hrest⟩ := (Option.any_eq_true _ _).mp h
    obtain ⟨decimals, rfl⟩ := List.head?_eq_some_iff.mp hpoint
    exact List.forall_mem_cons.mpr
      ⟨rfl, isNumeral_of_afterDigits? hdigits (isNumeral_of_isExponent hrest)⟩
  · exact isNumeral_of_isExponent h

theorem isNumeral_of_isUnsigned (h : isUnsigned s = true) : ∀ c ∈ s, isNumeral c = true := by
  obtain ⟨rest, hdigits, hrest⟩ := (Option.any_eq_true _ _).mp h
  exact isNumeral_of_afterDigits? hdigits (isNumeral_of_isFraction hrest)

theorem isNumeral_of_isNumberText (h : isNumberText s = true) : ∀ c ∈ s, isNumeral c = true := by
  unfold isNumberText at h
  split_ifs at h with hminus
  · obtain ⟨unsigned, rfl⟩ := List.head?_eq_some_iff.mp hminus
    exact List.forall_mem_cons.mpr ⟨rfl, isNumeral_of_isUnsigned h⟩
  · exact isNumeral_of_isUnsigned h

theorem isNumeral_toString_int (n : Int) : ∀ c ∈ (toString n).toList, isNumeral c = true :=
  isNumeral_of_isNumberText (isNumberText_toString_int n)

theorem isNumeral_number (n : Number) : ∀ c ∈ n.text.toList, isNumeral c = true :=
  isNumeral_of_isNumberText (isNumberText_number n)

theorem ne_nil_of_isNumberText (h : isNumberText s = true) : s ≠ [] := by
  rintro rfl
  cases h

end CubeSql
