/-!
# Escaped texts

Where a quoted text ends in which a backslash takes the character after it literally.
-/

namespace CubeSql.Text

/-- Splits a text at the first quote that no backslash escapes: what stands before the quote, and what
follows it. -/
def untilQuote : List Char → Option (List Char × List Char)
  | [] => none
  | '"' :: rest => some ([], rest)
  | '\\' :: c :: rest => (untilQuote rest).map fun (inside, after) => ('\\' :: c :: inside, after)
  | c :: rest => (untilQuote rest).map fun (inside, after) => (c :: inside, after)

theorem length_of_untilQuote {text inside after : List Char}
    (h : untilQuote text = some (inside, after)) : after.length < text.length := by
  fun_induction untilQuote text generalizing inside with
  | case1 => simp at h
  | case2 rest => simp_all
  | case3 c rest ih =>
    obtain ⟨⟨i, a⟩, hi, hp⟩ := Option.map_eq_some_iff.mp h
    simp only [Prod.mk.injEq] at hp
    have := @ih i (hp.2 ▸ hi)
    simp only [List.length_cons]
    omega
  | case4 c rest _ _ ih =>
    obtain ⟨⟨i, a⟩, hi, hp⟩ := Option.map_eq_some_iff.mp h
    simp only [Prod.mk.injEq] at hp
    have := @ih i (hp.2 ▸ hi)
    simp only [List.length_cons]
    omega

end CubeSql.Text
