import TinyMips.Table.Column

/-!
# Layouts

How tables are drawn: what stands around cells, and the rulers between rows. A text that breaks
into lines takes as many lines of its row in most layouts, and is left as it is in the others.
-/

namespace TinyMips

/-- How a table is drawn. -/
inductive Layout where
  /-- a frame around every cell -/
  | grid
  /-- columns without any lines -/
  | plain
  /-- columns and a ruler under the headings -/
  | simple
  /-- bars between the columns, and a ruler under the headings -/
  | github
  /-- as `github`, with marks for the alignment in the ruler -/
  | pipe
  /-- a frame around the whole and a ruler under the headings -/
  | psql
  /-- columns divided by tabs -/
  | tsv
  /-- as `simple`, but texts are never broken into lines; this is for all other names -/
  | other
  deriving DecidableEq, Repr

namespace Layout

/-- The layout with a given name. Some names that are in use are left out, and are drawn here as an
unknown name is: those of grids and outlines in other strokes, such as `fancy_grid` and
`heavy_outline`; `outline`, `orgtbl`, `jira`, `presto`, `pretty` and `rst`; and those of markup
languages, such as `html`, `latex`, `mediawiki`, `moinmoin`, `youtrack`, `textile` and `asciidoc`.
-/
def ofName (name : String) : Layout :=
  match name with
  | "grid" => .grid
  | "plain" => .plain
  | "simple" => .simple
  | "github" => .github
  | "pipe" => .pipe
  | "psql" => .psql
  | "tsv" => .tsv
  | _ => .other

end Layout

/-! ## Lines -/

/-- What stands before, between and after the cells of a line. -/
structure Frame where
  /-- before the first cell -/
  opening : String
  /-- between two cells -/
  divider : String
  /-- after the last cell -/
  closing : String

/-- The cells of a line in their frame. -/
def Frame.line (frame : Frame) (cells : List (List Char)) : List Char :=
  frame.opening.toList ++ List.intercalate frame.divider.toList cells ++ frame.closing.toList

/-- A ruler: a frame and the character that fills the cells. -/
structure Ruler where
  /-- what stands around the cells -/
  frame : Frame
  /-- what fills the cells -/
  fill : Char

/-- The parts of a layout. -/
structure Style where
  /-- what stands around the cells of a row and their margins -/
  row : Frame
  /-- how many spaces are on either side of a cell -/
  margin : Nat
  /-- the ruler above and below the whole -/
  border? : Option Ruler
  /-- the ruler under the headings -/
  underline? : Option Ruler
  /-- the ruler between two rows -/
  between? : Option Ruler
  /-- whether the ruler under the headings marks the alignment of the columns -/
  marksAlignment : Bool
  /-- whether a text may take several lines -/
  breaksLines : Bool

/-- The parts of each layout. -/
def Layout.style : Layout → Style
  | .grid =>
    let ruler := { frame := ⟨"+", "+", "+"⟩, fill := '-' }
    { row := ⟨"|", "|", "|"⟩, margin := 1, border? := some ruler,
      underline? := some { ruler with fill := '=' }, between? := some ruler,
      marksAlignment := false, breaksLines := true }
  | .plain =>
    { row := ⟨"", "  ", ""⟩, margin := 0, border? := none, underline? := none, between? := none,
      marksAlignment := false, breaksLines := true }
  | .simple =>
    { row := ⟨"", "  ", ""⟩, margin := 0, border? := none,
      underline? := some { frame := ⟨"", "  ", ""⟩, fill := '-' }, between? := none,
      marksAlignment := false, breaksLines := true }
  | .github =>
    { row := ⟨"|", "|", "|"⟩, margin := 1, border? := none,
      underline? := some { frame := ⟨"|", "|", "|"⟩, fill := '-' }, between? := none,
      marksAlignment := false, breaksLines := true }
  | .pipe =>
    { row := ⟨"|", "|", "|"⟩, margin := 1, border? := none,
      underline? := some { frame := ⟨"|", "|", "|"⟩, fill := '-' }, between? := none,
      marksAlignment := true, breaksLines := true }
  | .psql =>
    { row := ⟨"|", "|", "|"⟩, margin := 1,
      border? := some { frame := ⟨"+", "+", "+"⟩, fill := '-' },
      underline? := some { frame := ⟨"|", "+", "|"⟩, fill := '-' }, between? := none,
      marksAlignment := false, breaksLines := true }
  | .tsv =>
    { row := ⟨"", "\t", ""⟩, margin := 0, border? := none, underline? := none, between? := none,
      marksAlignment := false, breaksLines := false }
  | .other =>
    { row := ⟨"", "  ", ""⟩, margin := 0, border? := none,
      underline? := some { frame := ⟨"", "  ", ""⟩, fill := '-' }, between? := none,
      marksAlignment := false, breaksLines := false }

namespace Style

/-- A cell with its margins. -/
def spaced (style : Style) (text : List Char) : List Char :=
  List.replicate style.margin ' ' ++ text ++ List.replicate style.margin ' '

/-- A number of lines of a row, whose cells are given as lines of text. A cell that has fewer lines
than the row is blank below them. -/
def firstLines (style : Style) (columns : List Column) :
    Nat → List (List (List Char)) → List (List Char)
  | 0, _ => []
  | height + 1, cells =>
    let texts := List.zipWith
      (fun column cell => cell.headD (List.replicate column.width ' ')) columns cells
    Text.stripBack (style.row.line (texts.map style.spaced)) ::
      firstLines style columns height (cells.map List.tail)

/-- The lines of a row: as many as the cell that has most. -/
def rowLines (style : Style) (columns : List Column) (cells : List (List (List Char))) :
    List (List Char) :=
  style.firstLines columns ((cells.map List.length).foldr max 0) cells

/-- The line of a ruler, or none. -/
def rulerLine (style : Style) (columns : List Column) (ruler? : Option Ruler) : List (List Char) :=
  ruler?.toList.map fun ruler =>
    ruler.frame.line (columns.map fun column =>
      List.replicate (column.width + 2 * style.margin) ruler.fill)

/-- The part of a ruler under a column, with a colon on the side of its alignment. -/
def markedCell (style : Style) (fill : Char) (column : Column) : List Char :=
  let dashes := List.replicate (column.width + 2 * style.margin - 1) fill
  match column.alignment with
  | .left => ':' :: dashes
  | .right => dashes ++ [':']

/-- The line under the headings, or none. -/
def underline (style : Style) (columns : List Column) (isEmpty : Bool) : List (List Char) :=
  if style.marksAlignment ∧ !isEmpty then
    style.underline?.toList.map fun ruler =>
      ruler.frame.line (columns.map (style.markedCell ruler.fill))
  else
    style.rulerLine columns style.underline?

/-- The line of a divider: as under the headings, or else blank. -/
def dividerLine (style : Style) (columns : List Column) (isEmpty : Bool) : List (List Char) :=
  if style.underline?.isSome then style.underline columns isEmpty else [[]]

end Style

end TinyMips
