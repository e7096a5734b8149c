import TinyMips.Table.Cell

/-!
# Columns

Columns of texts that are filled up to one width. Texts may be broken into lines, and control
sequences and links take no room. A text whose line breaks are of several kinds may be cut into
other lines than it is measured in.
-/

namespace TinyMips

/-- How the texts of a table are set. -/
structure Setting where
  /-- whether texts are broken into lines -/
  breaksLines : Bool
  /-- whether there are control sequences or links in the table -/
  hasSequences : Bool
  deriving DecidableEq, Repr

namespace Setting

/-- The characters that make a table break its texts into lines. -/
def isBreak (c : Char) : Bool :=
  c = '\n' || c = '\r'

/-- The parts in which a text is measured. -/
def parts (setting : Setting) (text : List Char) : List (List Char) :=
  if setting.breaksLines then Text.cut isBreak text else [text]

/-- The number of characters that are shown of the longest part of a text. -/
def width (setting : Setting) (text : List Char) : Nat :=
  ((setting.parts text).map Text.shownLength).foldr max 0

end Setting

/-- A text with a number of spaces on the side where it does not stand. -/
def Cell.Alignment.pad (alignment : Cell.Alignment) (count : Nat) (text : List Char) :
    List Char :=
  match alignment with
  | .left => text ++ List.replicate count ' '
  | .right => List.replicate count ' ' ++ text

/-- The lines of a text, filled up to a width. Each line has the room of the part at its place; in
a table with control sequences or links, lines beyond the parts are left out. -/
def Setting.fill (setting : Setting) (alignment : Cell.Alignment) (width : Nat)
    (text : List Char) : List (List Char) :=
  if !setting.breaksLines then [alignment.pad (width - Text.shownLength text) text]
  else if !setting.hasSequences then
    (Text.lines text).map fun line => alignment.pad (width - line.length) line
  else
    List.zipWith
      (fun line part =>
        alignment.pad (width + part.length - Text.shownLength part - line.length) line)
      (Text.lines text) (setting.parts text)

/-- A column as it is drawn. -/
structure Column where
  /-- the side on which its texts stand -/
  alignment : Cell.Alignment
  /-- the number of characters that are shown in its widest cell -/
  width : Nat
  /-- the heading -/
  heading : List Char
  /-- the lines of each cell -/
  cells : List (List (List Char))

namespace Column

/-- The room that a heading has at least beside it. -/
def headingRoom : Nat := 2

/-- The column of texts of a kind. It is as wide as its widest cell, and wider than its heading. -/
def of (setting : Setting) (heading : List Char) (kind : Cell.Kind) (texts : List (List Char)) :
    Column :=
  let written := kind.write setting.hasSequences texts
  let least := heading.length + headingRoom
  let room := (written.map setting.width).foldr max least
  let cells := written.map (setting.fill kind.alignment room)
  let width := (cells.flatten.map Text.shownLength).foldr max least
  { alignment := kind.alignment, width
    heading := kind.alignment.pad (width - heading.length) heading, cells }

end Column

end TinyMips
