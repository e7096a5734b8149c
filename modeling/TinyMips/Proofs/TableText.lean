import TinyMips.Proofs.GridTable

/-!
# What tables are made of

In whatever layout a table is drawn, the characters of its lines are those of its columns and those
that the layout draws with (`Style.chars`). The main statement is that a property of all of these is
one of every character of the table (`Table.within_lines`). Hence the lines of a table of changes
are lines in every layout, and none of them starts like that of an error
(`Report.AreNamed.within_lines`).
-/

namespace TinyMips

/-- Whether all characters of a text have a property. -/
def Text.Within (P : Char → Prop) (s : List Char) : Prop :=
  ∀ c ∈ s, P c

instance {P : Char → Prop} [DecidablePred P] : DecidablePred (Text.Within P) :=
  List.decidableBAll P

namespace Text.Within

variable {P : Char → Prop} {a b sep : List Char}

theorem append (ha : Within P a) (hb : Within P b) : Within P (a ++ b) :=
  List.forall_mem_append.2 ⟨ha, hb⟩

theorem replicate {c : Char} (hc : P c) (n : Nat) : Within P (List.replicate n c) := by
  intro d hd
  rw [List.eq_of_mem_replicate hd]
  exact hc

theorem stripBack (h : Within P a) : Within P (stripBack a) := fun c hc =>
  h c (List.mem_reverse.1 ((List.dropWhile_sublist isBlank).subset (List.mem_reverse.1 hc)))

end Text.Within

/-! ## Layouts -/

/-- The characters of a frame. -/
def Frame.chars (frame : Frame) : List Char :=
  frame.opening.toList ++ frame.divider.toList ++ frame.closing.toList

/-- The characters of a ruler. -/
def Ruler.chars (ruler : Ruler) : List Char :=
  ruler.fill :: ruler.frame.chars

/-- The rulers of a layout. -/
def Style.rulers (style : Style) : List Ruler :=
  style.border?.toList ++ style.underline?.toList ++ style.between?.toList

/-- The characters that a layout draws with. -/
def Style.chars (style : Style) : List Char :=
  [' ', ':', Table.dividerMark] ++ style.row.chars ++ style.rulers.flatMap Ruler.chars

open Text (Within)

variable {P : Char → Prop} {style : Style} {column : Column} {columns : List Column}

theorem Frame.within_line {frame : Frame} (hframe : Within P frame.chars)
    {cells : List (List Char)} (hcells : ∀ cell ∈ cells, Within P cell) :
    Within P (frame.line cells) := by
  obtain ⟨hfront, hclosing⟩ := List.forall_mem_append.1 hframe
  obtain ⟨hopening, hdivider⟩ := List.forall_mem_append.1 hfront
  exact .append (.append hopening (Text.forall_mem_intercalate hdivider hcells)) hclosing

namespace Style

section Chars

variable (h : Within P style.chars)
include h

theorem space_of_within_chars : P ' ' :=
  h ' ' (by simp [chars])

theorem colon_of_within_chars : P ':' :=
  h ':' (by simp [chars])

theorem mark_of_within_chars : P Table.dividerMark :=
  h Table.dividerMark (by simp [chars])

theorem row_of_within_chars : Within P style.row.chars := fun c hc =>
  h c (by simp [chars, hc])

theorem ruler_of_within_chars {ruler : Ruler} (hruler : ruler ∈ style.rulers) :
    P ruler.fill ∧ Within P ruler.frame.chars := by
  refine List.forall_mem_cons.1 fun c hc => h c ?_
  exact List.mem_append_right _ (List.mem_flatMap.2 ⟨ruler, hruler, hc⟩)

theorem within_spaced {text : List Char} (htext : Within P text) :
    Within P (style.spaced text) := by
  have margin : Within P (List.replicate style.margin ' ') :=
    .replicate (space_of_within_chars h) _
  exact .append (.append margin htext) margin

end Chars

end Style

/-! ## Lines -/

/-- Whether all characters of a column have a property. -/
structure Column.Within (P : Char → Prop) (column : Column) : Prop where
  /-- those of its heading have it -/
  heading : Text.Within P column.heading
  /-- those of its cells have it -/
  cells : ∀ cell ∈ column.cells, ∀ text ∈ cell, Text.Within P text

/-- The cell in some row of such a column. -/
theorem Column.Within.getD (h : column.Within P) (i : Nat) :
    ∀ text ∈ column.cells.getD i [], Text.Within P text := by
  rw [List.getD_eq_getElem?_getD]
  cases hcell : column.cells[i]? with
  | none => exact fun _ htext => absurd htext List.not_mem_nil
  | some cell => exact h.cells cell (List.mem_of_getElem? hcell)

namespace Style

section Lines

variable (h : Within P style.chars)
include h

/-- The first line of a cell, or the spaces in its place. -/
theorem within_headD {cell : List (List Char)} (hcell : ∀ text ∈ cell, Within P text)
    (width : Nat) : Within P (cell.headD (List.replicate width ' ')) := by
  cases cell with
  | nil => exact .replicate (space_of_within_chars h) width
  | cons text rest => exact hcell text List.mem_cons_self

theorem within_firstLines {cells : List (List (List Char))}
    (hcells : ∀ cell ∈ cells, ∀ text ∈ cell, Within P text) (height : Nat) :
    ∀ line ∈ style.firstLines columns height cells, Within P line := by
  induction height generalizing cells with
  | zero => exact fun _ hline => absurd hline List.not_mem_nil
  | succ height ih =>
    rw [firstLines]
    refine List.forall_mem_cons.2 ⟨.stripBack (Frame.within_line (row_of_within_chars h) ?_), ih ?_⟩
    · refine List.forall_mem_map.2 fun text htext => within_spaced h ?_
      obtain ⟨i, hi, rfl⟩ := List.mem_iff_getElem.1 htext
      rw [List.getElem_zipWith]
      exact within_headD h (hcells _ (List.getElem_mem _)) _
    · exact List.forall_mem_map.2 fun cell hcell text htext =>
        hcells cell hcell text (List.mem_of_mem_tail htext)

theorem within_rowLines {cells : List (List (List Char))}
    (hcells : ∀ cell ∈ cells, ∀ text ∈ cell, Within P text) :
    ∀ line ∈ style.rowLines columns cells, Within P line :=
  within_firstLines h hcells _

theorem within_rulerLine {ruler? : Option Ruler} (hruler : ∀ ruler ∈ ruler?, ruler ∈ style.rulers)
    (columns : List Column) : ∀ line ∈ style.rulerLine columns ruler?, Within P line := by
  refine List.forall_mem_map.2 fun ruler hmem => ?_
  obtain ⟨hfill, hframe⟩ := ruler_of_within_chars h (hruler ruler (Option.mem_toList.1 hmem))
  exact Frame.within_line hframe (List.forall_mem_map.2 fun _ _ => .replicate hfill _)

theorem within_underline (columns : List Column) (isEmpty : Bool) :
    ∀ line ∈ style.underline columns isEmpty, Within P line := by
  have hruler : ∀ ruler ∈ style.underline?, ruler ∈ style.rulers := fun ruler hmem => by
    simp [rulers, Option.mem_def.1 hmem]
  rw [underline]
  split
  case isFalse => exact within_rulerLine h hruler columns
  case isTrue =>
    refine List.forall_mem_map.2 fun ruler hmem => ?_
    obtain ⟨hfill, hframe⟩ := ruler_of_within_chars h (hruler ruler (Option.mem_toList.1 hmem))
    refine Frame.within_line hframe (List.forall_mem_map.2 fun column _ => ?_)
    have dashes := Text.Within.replicate hfill (column.width + 2 * style.margin - 1)
    have colon : Within P [':'] := List.forall_mem_singleton.2 (colon_of_within_chars h)
    rw [markedCell]
    cases column.alignment with
    | left => exact colon.append dashes
    | right => exact dashes.append colon

theorem within_dividerLine (columns : List Column) (isEmpty : Bool) :
    ∀ line ∈ style.dividerLine columns isEmpty, Within P line := by
  rw [dividerLine]
  split
  case isTrue => exact within_underline h columns isEmpty
  case isFalse => exact List.forall_mem_singleton.2 fun _ hc => absurd hc List.not_mem_nil

end Lines

end Style

/-! ## Tables -/

namespace Table

/-- The lines of rows are those of the entries. -/
theorem mem_of_mem_place {dividers : List Bool} {blocks : List (List (List Char))} :
    ∀ row ∈ place dividers blocks, ∀ block ∈ row, block ∈ blocks := by
  fun_induction place dividers blocks with
  | case1 dividers blocks ih =>
    exact List.forall_mem_cons.2 ⟨fun _ h => (nomatch h), ih⟩
  | case2 dividers block blocks ih =>
    refine List.forall_mem_cons.2 ⟨fun other hother => ?_, fun row hrow other hother => ?_⟩
    · obtain rfl := Option.some.inj hother
      exact List.mem_cons_self
    · exact List.mem_cons_of_mem _ (ih row hrow other hother)
  | case3 => exact fun _ h => absurd h List.not_mem_nil

/-- What holds of the lines of rows and of the line for rows without any holds of all of them. -/
theorem forall_mem_getD {Q : List Char → Prop} {row : Option (List (List Char))}
    {missing : List (List Char)} (hrow : ∀ block ∈ row, ∀ line ∈ block, Q line)
    (hmissing : ∀ line ∈ missing, Q line) : ∀ line ∈ row.getD missing, Q line := by
  cases row with
  | none => exact hmissing
  | some block => exact hrow block rfl

section Lines

variable {layout : Layout} (h : Within P layout.style.chars)
include h

theorem within_markLine (setting : Setting) : Within P (markLine layout.style setting) := by
  have mark : Within P [dividerMark] :=
    List.forall_mem_singleton.2 (Style.mark_of_within_chars h)
  refine Frame.within_line (Style.row_of_within_chars h) (List.forall_mem_singleton.2 ?_)
  split
  · exact Style.within_spaced h mark
  · exact mark

theorem within_ruledRows (setting : Setting) (columns : List Column) (count : Nat)
    {rows : List (Option (List (List Char)))}
    (hrows : ∀ row ∈ rows, ∀ block ∈ row, ∀ line ∈ block, Within P line) :
    ∀ line ∈ ruledRows layout.style setting columns count rows, Within P line := by
  have between : ∀ ruler ∈ layout.style.between?, ruler ∈ layout.style.rulers :=
    fun ruler hmem => by simp [Style.rulers, Option.mem_def.1 hmem]
  refine List.forall_mem_append.2 ⟨fun line hline => ?_, fun line hline => ?_⟩
  · obtain ⟨row, hrow, hline⟩ := List.mem_flatMap.1 hline
    rcases List.mem_append.1 hline with hline | hline
    · have earlier : row ∈ rows := (List.dropLast_sublist rows).subset (List.mem_of_mem_take hrow)
      exact forall_mem_getD (hrows row earlier) (fun _ hnone => absurd hnone List.not_mem_nil)
        line hline
    · exact Style.within_rulerLine h between columns line hline
  · obtain ⟨row, hrow, hline⟩ := List.mem_flatMap.1 hline
    have last : row ∈ rows := List.mem_of_getLast? (Option.mem_toList.1 hrow)
    exact forall_mem_getD (hrows row last) (List.forall_mem_singleton.2 (within_markLine h setting))
      line hline

theorem within_bodyLines (table : Table) (hcolumns : ∀ column ∈ columns, column.Within P) :
    ∀ line ∈ table.bodyLines layout columns, Within P line := by
  have rows : ∀ row ∈ place (table.rows.map (isDivider ·.1)) (table.entries.mapIdx fun i _ =>
      layout.style.rowLines columns (columns.map fun column => column.cells.getD i [])),
      ∀ block ∈ row, ∀ line ∈ block, Within P line := by
    intro row hrow block hblock
    obtain ⟨i, hi, rfl⟩ := List.mem_mapIdx.1 (mem_of_mem_place row hrow block hblock)
    refine Style.within_rowLines h (List.forall_mem_map.2 fun column hcolumn => ?_)
    exact (hcolumns column hcolumn).getD i
  rw [bodyLines]
  split
  case isTrue => exact within_ruledRows h _ columns _ rows
  case isFalse =>
    intro line hline
    obtain ⟨row, hrow, hline⟩ := List.mem_flatMap.1 hline
    exact forall_mem_getD (rows row hrow) (Style.within_dividerLine h columns _) line hline

/-- **The characters of tables.** If the characters that a layout draws with have a property, and
those of the columns of a table, then all characters of the lines of the table have it. -/
theorem within_lines (table : Table)
    (hcolumns : ∀ column ∈ table.columns layout, column.Within P) :
    ∀ line ∈ table.lines layout, Within P line := by
  have border : ∀ line ∈ layout.style.rulerLine (table.columns layout) layout.style.border?,
      Within P line :=
    Style.within_rulerLine h (fun ruler hmem => by simp [Style.rulers, Option.mem_def.1 hmem]) _
  have headings : ∀ line ∈ layout.style.rowLines (table.columns layout)
      ((table.columns layout).map fun column => [column.heading]), Within P line :=
    Style.within_rowLines h (List.forall_mem_map.2 fun column hcolumn =>
      List.forall_mem_singleton.2 (hcolumns column hcolumn).heading)
  have underline := Style.within_underline h (table.columns layout) table.entries.isEmpty
  have body := within_bodyLines h table hcolumns
  rw [lines]
  simp only [List.forall_mem_append]
  exact ⟨⟨⟨⟨border, headings⟩, underline⟩, body⟩, border⟩

end Lines

end Table

/-! ## Tables of changes -/

/-- Whether a character is neither a line break nor the one that lines of errors start with. -/
def Text.IsTabular (c : Char) : Prop :=
  isLineBreak c = false ∧ c ≠ '['

instance : DecidablePred Text.IsTabular := fun _ => inferInstanceAs (Decidable (_ ∧ _))

open Text (IsTabular)

theorem Layout.within_chars (layout : Layout) : Within IsTabular layout.style.chars := by
  cases layout <;> decide

theorem Register.within_name (r : Register) : Within IsTabular r.name.toList := by
  cases r with
  | general i =>
    revert i
    decide
  | accumulator a => cases a <;> decide

theorem Text.within_toString (hdigit : ∀ c, c.isDigit = true → P c) (hminus : P '-') (n : Int) :
    Within P (toString n).toList := by
  have digits : Within P (Nat.toDigits 10 n.natAbs) := fun c hc =>
    hdigit c (Nat.isDigit_of_mem_toDigits (by decide) (by decide) hc)
  rcases toList_toString n with h | h
  · rw [h]
    exact digits
  · rw [h]
    exact List.forall_mem_cons.2 ⟨hminus, digits⟩

theorem Text.isTabular_of_isDigit {c : Char} (h : c.isDigit = true) : IsTabular c := by
  have plain := isPlainChar_of_isDigit h
  simp only [isPlainChar, Bool.and_eq_true] at plain
  refine ⟨isLineBreak_of_isVerbatim plain.1.1, ?_⟩
  rintro rfl
  exact absurd h (by decide)

theorem Reading.IsPadded.within {text cell : List Char} (h : Reading.IsPadded text cell)
    (hspace : P ' ') (htext : Within P text) : Within P cell := by
  obtain ⟨a, b, rfl⟩ := h
  exact .append (.replicate hspace a) (.append htext (.replicate hspace b))

/-- A column has the characters of what it shows. -/
theorem Column.Shows.within {heading : List Char} {texts : List (List Char)}
    (h : column.Shows heading texts) (hspace : P ' ') (hheading : Text.Within P heading)
    (htexts : ∀ text ∈ texts, Text.Within P text) : column.Within P := by
  refine ⟨h.heading.within hspace hheading, ?_⟩
  obtain ⟨padded, hcells, hpadded⟩ := h.cells
  rw [hcells]
  refine List.forall_mem_map.2 fun cell hcell => List.forall_mem_singleton.2 ?_
  obtain ⟨i, hi, rfl⟩ := List.mem_iff_getElem.1 hcell
  have hi' : i < texts.length := hpadded.length_eq ▸ hi
  exact (hpadded.get hi' hi).within hspace (htexts _ (List.getElem_mem hi'))

/-- A property of the characters of a layout, of the headings, of the names of registers and of
integers is one of every character of a table of changes. -/
theorem Report.AreNamed.within_lines_of {list : List Change} (h : AreNamed list) (hne : list ≠ [])
    {layout : Layout} (hchars : Within P layout.style.chars)
    (hheadings : ∀ heading ∈ ["Reg Name", "Old Value", "New Value"], Within P heading.toList)
    (hname : ∀ r : Register, Within P r.name.toList)
    (hvalue : ∀ n : Int, Within P (toString n).toList) :
    ∀ line ∈ (changeTable list).lines layout, Within P line := by
  obtain ⟨names, olds, news, hcolumns, hnames, holds, hnews⟩ := h.columns hne layout
  have space : P ' ' := Style.space_of_within_chars hchars
  refine Table.within_lines hchars _ ?_
  rw [hcolumns]
  simp only [List.forall_mem_cons, List.not_mem_nil, false_implies, implies_true, and_true] at *
  obtain ⟨nameHeading, oldHeading, newHeading⟩ := hheadings
  refine ⟨hnames.within space nameHeading (List.forall_mem_map.2 fun change hchange => ?_),
    holds.within space oldHeading (List.forall_mem_map.2 fun _ _ => hvalue _),
    hnews.within space newHeading (List.forall_mem_map.2 fun _ _ => hvalue _)⟩
  obtain ⟨r, hr⟩ := h change hchange
  rw [hr]
  exact hname r

/-- The lines of a table of changes have no line breaks and none of them is that of an error, in
every layout. -/
theorem Report.AreNamed.within_lines {list : List Change} (h : AreNamed list) (hne : list ≠ [])
    (layout : Layout) : ∀ line ∈ (changeTable list).lines layout, Within IsTabular line :=
  h.within_lines_of hne layout.within_chars (by decide) Register.within_name
    (Text.within_toString (fun _ => Text.isTabular_of_isDigit) (by decide))

end TinyMips
