/-!
# Tab stops

Tabs stand for spaces up to the next of the columns 0, 8, 16, … of their line.
-/

namespace TinyMips.Text

/-- The distance between two tab stops. -/
def tabWidth : Nat := 8

/-- The text with its tabs written as spaces, when its first character stands in column `column`.
A line feed or a carriage return goes back to column 0. -/
def expandTabsFrom (column : Nat) : List Char → List Char
  | [] => []
  | c :: rest =>
    if c = '\t' then
      List.replicate (tabWidth - column % tabWidth) ' ' ++ expandTabsFrom 0 rest
    else
      c :: expandTabsFrom (if c = '\n' ∨ c = '\r' then 0 else column + 1) rest

/-- The text with its tabs written as spaces. -/
def expandTabs (s : List Char) : List Char :=
  expandTabsFrom 0 s

example : String.ofList (expandTabs "ab\tc\n\td".toList) = "ab      c\n        d" := by decide

/-- No tab is left. -/
theorem tab_notMem_expandTabsFrom (column : Nat) (s : List Char) :
    '\t' ∉ expandTabsFrom column s := by
  induction s generalizing column with
  | nil => simp [expandTabsFrom]
  | cons c rest ih =>
    by_cases h : c = '\t'
    · simp [expandTabsFrom, h, ih]
    · simp [expandTabsFrom, h, ih, Ne.symm h]

end TinyMips.Text
