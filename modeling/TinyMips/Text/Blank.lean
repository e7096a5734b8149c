/-!
# Blank characters

The characters that count as white space at the ends of a line and at the start of an operand
text, which are the white space of Unicode and the four separators `U+001C` to `U+001F`.
-/

namespace TinyMips.Text

/-- White space of any script: the controls that move the print position, the separators of
records, and the blanks of every width. -/
def isBlank (c : Char) : Bool :=
  let n := c.toNat
  (9 ≤ n && n ≤ 13) || (28 ≤ n && n ≤ 32) || n == 0x85 || n == 0xa0 || n == 0x1680 ||
    (0x2000 ≤ n && n ≤ 0x200a) || n == 0x2028 || n == 0x2029 || n == 0x202f || n == 0x205f ||
    n == 0x3000

/-- The text without the blanks in front of it. -/
def stripFront (s : List Char) : List Char :=
  s.dropWhile isBlank

/-- The text without the blanks after it. -/
def stripBack (s : List Char) : List Char :=
  (s.reverse.dropWhile isBlank).reverse

/-- The text without the blanks on either side of it. -/
def strip (s : List Char) : List Char :=
  stripBack (stripFront s)

/-- Nothing is added to a text where its blanks are taken off. -/
theorem strip_sublist {s : List Char} : (strip s).Sublist s := by
  have back := (List.dropWhile_sublist isBlank (l := (stripFront s).reverse)).reverse
  rw [List.reverse_reverse] at back
  exact back.trans (List.dropWhile_sublist isBlank)

end TinyMips.Text
