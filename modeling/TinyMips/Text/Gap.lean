/-!
# Gaps

The space between the tokens of a line. Tabs are not among its characters: they have been
written as spaces before tokens are read.
-/

namespace TinyMips.Text

/-- The characters that may stand between tokens. -/
def isGap (c : Char) : Bool :=
  c = ' ' || c = '\n' || c = '\r'

/-- The text from its next token on. -/
def skipGap (s : List Char) : List Char :=
  s.dropWhile isGap

/-- Whether no token is left. -/
def atEnd (s : List Char) : Bool :=
  s.all isGap

theorem atEnd_iff_skipGap_eq_nil (s : List Char) : atEnd s = true ↔ skipGap s = [] := by
  induction s with
  | nil => simp [atEnd, skipGap]
  | cons c rest ih =>
    by_cases h : isGap c = true
    · simp only [atEnd, skipGap, List.all_cons, List.dropWhile_cons, h, Bool.true_and,
        ↓reduceIte] at ih ⊢
      exact ih
    · simp [atEnd, skipGap, h]

theorem skipGap_append_of_all {gap : List Char} (h : gap.all isGap) (s : List Char) :
    skipGap (gap ++ s) = skipGap s := by
  induction gap with
  | nil => rfl
  | cons c rest ih =>
    simp only [List.all_cons, Bool.and_eq_true] at h
    simp only [skipGap, List.cons_append, List.dropWhile_cons, h.1, ↓reduceIte] at ih ⊢
    exact ih h.2

end TinyMips.Text
