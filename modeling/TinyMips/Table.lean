import TinyMips.Table.Layout

/-!
# Tables

Tables of names and integers. The integers are set on the right and the names as their kind asks
for, headings included. A table without rows is set on the left throughout. A certain name makes a
row a divider. Some tables of unusual names are not drawn. The main statement is that all others are
(`fault?_eq_none`).
-/

namespace TinyMips

/-- A heading for each column, and rows of a name and integers. -/
structure Table where
  /-- the headings of the columns -/
  headings : List String
  /-- the name and the integers of each row -/
  rows : List (String × List Int)

namespace Table

/-- The character that is the name of a divider. -/
def dividerMark : Char := '\x01'

/-- Whether a row with this name is a divider. -/
def isDivider (name : String) : Bool :=
  Text.strip name.toList = [dividerMark]

/-- The rows that are not dividers. -/
def entries (table : Table) : List (String × List Int) :=
  table.rows.filter (!isDivider ·.1)

/-- The texts of the names. -/
def names (table : Table) : List (List Char) :=
  table.entries.map (·.1.toList)

/-- The texts of the integers of a column, which is counted after that of the names. -/
def integers (table : Table) (column : Nat) : List (List Char) :=
  table.entries.map fun row => (toString (row.2.getD column 0)).toList

/-- All texts of the table in one, with tabs between them. -/
def text (table : Table) : List Char :=
  List.intercalate ['\t'] (table.headings.map String.toList ++
    table.entries.flatMap fun row => row.1.toList :: row.2.map fun v => (toString v).toList)

/-- How the texts of the table are set in a layout. -/
def setting (layout : Layout) (table : Table) : Setting where
  breaksLines := layout.style.breaksLines && table.names.any (·.any Setting.isBreak)
  hasSequences := Text.hasSequence table.text

/-- The columns of the table. -/
def columns (layout : Layout) (table : Table) : List Column :=
  let setting := table.setting layout
  table.headings.mapIdx fun i heading =>
    match i with
    | 0 => .of setting heading.toList (.ofTexts table.names) table.names
    | i + 1 =>
      let kind : Cell.Kind := if table.entries.isEmpty then .neutral else .integer
      .of setting heading.toList kind (table.integers i)

/-! ## Lines -/

/-- Puts the lines of the entries in the places that rows have for them; a divider has none. -/
def place : List Bool → List (List (List Char)) → List (Option (List (List Char)))
  | true :: dividers, blocks => none :: place dividers blocks
  | false :: dividers, block :: blocks => some block :: place dividers blocks
  | _, _ => []

/-- The line of a divider that is seen by its mark. The mark has the margins of a cell where texts
are broken into lines. -/
def markLine (style : Style) (setting : Setting) : List Char :=
  style.row.line [if setting.breaksLines then style.spaced [dividerMark] else [dividerMark]]

/-- The lines of rows of which any two have rulers between them. As many of the rows have a ruler
below them as there are entries, and a divider is only seen by its ruler, or else by its mark. -/
def ruledRows (style : Style) (setting : Setting) (columns : List Column) (entryCount : Nat)
    (rows : List (Option (List (List Char)))) : List (List Char) :=
  let ruled := (rows.dropLast.take entryCount).flatMap fun row =>
    row.getD [] ++ style.rulerLine columns style.between?
  let last := (rows.getLast?.toList).flatMap (·.getD [markLine style setting])
  ruled ++ last

/-- The lines of the rows. -/
def bodyLines (table : Table) (layout : Layout) (columns : List Column) : List (List Char) :=
  let style := layout.style
  let blocks := table.entries.mapIdx fun i _ =>
    style.rowLines columns (columns.map fun column => column.cells.getD i [])
  let rows := place (table.rows.map (isDivider ·.1)) blocks
  if style.between?.isSome then
    ruledRows style (table.setting layout) columns table.entries.length rows
  else rows.flatMap (·.getD (style.dividerLine columns table.entries.isEmpty))

/-- The lines of a table. -/
def lines (layout : Layout) (table : Table) : List (List Char) :=
  let style := layout.style
  let columns := table.columns layout
  style.rulerLine columns style.border? ++
    style.rowLines columns (columns.map fun column => [column.heading]) ++
    style.underline columns table.entries.isEmpty ++
    table.bodyLines layout columns ++
    style.rulerLine columns style.border?

/-! ## Faults -/

/-- Why a table is not drawn. -/
inductive Fault where
  /-- a cell cannot be written -/
  | cell (fault : Cell.Fault)
  /-- there should be rulers between rows that are all dividers -/
  | onlyDividers
  deriving DecidableEq, Repr

/-- The words for a table that is not drawn. -/
def Fault.message : Fault → String
  | .cell fault => fault.message
  | .onlyDividers => "list index out of range"

/-- Why a table is not drawn in a layout, if it is not. -/
def fault? (layout : Layout) (table : Table) : Option Fault :=
  match (Cell.Kind.ofTexts table.names).fault? table.names with
  | some fault => some (.cell fault)
  | none =>
    if layout.style.between?.isSome ∧ table.rows ≠ [] ∧ table.entries = [] then some .onlyDividers
    else none

theorem isDivider_eq_false {name : String} (h : ∀ c ∈ name.toList, Text.isVerbatim c) :
    isDivider name = false := by
  refine decide_eq_false fun hname => ?_
  have mem : dividerMark ∈ Text.strip name.toList := by
    rw [hname]
    exact List.mem_singleton_self _
  exact absurd (h _ (Text.strip_sublist.subset mem)) (by decide)

/-- A table with such names has no dividers. -/
theorem entries_eq_rows {table : Table}
    (h : ∀ row ∈ table.rows, ∀ c ∈ row.1.toList, Text.isVerbatim c) :
    table.entries = table.rows :=
  List.filter_eq_self.2 fun row hrow => by
    rw [isDivider_eq_false (h row hrow)]
    rfl

/-- A table is drawn if its names are printable and have no escape sequences. -/
theorem fault?_eq_none (layout : Layout) {table : Table}
    (h : ∀ row ∈ table.rows, ∀ c ∈ row.1.toList, Text.isVerbatim c) :
    table.fault? layout = none := by
  have names_verbatim : ∀ s ∈ table.names, ∀ c ∈ s, Text.isVerbatim c := by
    intro s hs
    obtain ⟨row, hrow, rfl⟩ := List.mem_map.1 hs
    exact h row (entries_eq_rows h ▸ hrow)
  rw [fault?, Cell.Kind.fault?_eq_none _ names_verbatim, entries_eq_rows h]
  exact if_neg fun h => h.2.1 h.2.2

end Table

end TinyMips
