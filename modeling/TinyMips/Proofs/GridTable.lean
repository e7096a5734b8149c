import Mathlib.Data.List.Forall2
import TinyMips.Proofs.Reading
import TinyMips.Proofs.Replay

/-!
# Tables in a frame

In the layout `grid` every cell of a table has a frame around it, so that a reader who goes by the
start of each line and by the bars finds the table again. The main statement is that in a table of
changes the reader finds one table and, for each change, the name of the register and the values
before and after (`Report.readsAs_changeTable`).
-/

namespace TinyMips

/-! ## Plain texts -/

namespace Text

/-- A character that is written as it is and is neither a blank nor a bar. -/
def isPlainChar (c : Char) : Bool :=
  isVerbatim c && c ≠ '|' && !isBlank c

/-- A text of such characters, and not empty. -/
def isPlain (s : List Char) : Bool :=
  s ≠ [] && s.all isPlainChar

theorem isPlain_iff {s : List Char} :
    isPlain s = true ↔ s ≠ [] ∧ ∀ c ∈ s, isPlainChar c = true := by
  simp [isPlain]

theorem isLineBreak_of_isVerbatim {c : Char} (h : isVerbatim c = true) :
    isLineBreak c = false := by
  simp only [isVerbatim, Bool.and_eq_true, decide_eq_true_eq] at h
  simp only [isLineBreak, Bool.or_eq_false_iff, Bool.and_eq_false_iff, decide_eq_false_iff_not,
    beq_eq_false_iff_ne]
  omega

section Plain

variable {s : List Char}

theorem isVerbatim_of_isPlain (h : isPlain s = true) : ∀ c ∈ s, isVerbatim c = true := by
  intro c hc
  have plain := (isPlain_iff.1 h).2 c hc
  simp only [isPlainChar, Bool.and_eq_true] at plain
  exact plain.1.1

theorem isBlank_of_isPlain (h : isPlain s = true) : ∀ c ∈ s, isBlank c = false := by
  intro c hc
  have plain := (isPlain_iff.1 h).2 c hc
  simp only [isPlainChar, Bool.and_eq_true, Bool.not_eq_true'] at plain
  exact plain.2

/-- A plain text can be a cell. -/
theorem isCell_of_isPlain (h : isPlain s = true) : Reading.IsCell s where
  ne_nil := (isPlain_iff.1 h).1
  head := by
    rw [Option.any_eq_false]
    exact fun c hc => isBlank_of_isPlain h c (List.mem_of_mem_head? hc)
  last := by
    rw [Option.any_eq_false]
    exact fun c hc => isBlank_of_isPlain h c (List.mem_of_mem_getLast? hc)
  bar hbar := absurd ((isPlain_iff.1 h).2 _ hbar) (by decide)
  isOneLine c hc := isLineBreak_of_isVerbatim (isVerbatim_of_isPlain h c hc)

/-- A plain text has no blanks on either side. -/
theorem strip_of_isPlain (h : isPlain s = true) : strip s = s := by
  have padded : Reading.IsPadded s s := ⟨0, 0, by simp⟩
  exact padded.strip (isCell_of_isPlain h)

end Plain

theorem isPlainChar_of_isDigit {c : Char} (h : c.isDigit = true) : isPlainChar c = true := by
  have notBar : c ≠ '|' := by
    rintro rfl
    exact absurd h (by decide)
  have notBackslash : c ≠ backslash := by
    rintro rfl
    exact absurd h (by decide)
  have bounds : 48 ≤ c.toNat ∧ c.toNat ≤ 57 := by
    simpa [Char.isDigit, UInt32.le_iff_toNat_le] using h
  simp [isPlainChar, isVerbatim, isBlank, notBar, notBackslash]
  omega

theorem isPlain_toDigits (n : Nat) : isPlain (Nat.toDigits 10 n) = true :=
  isPlain_iff.2 ⟨Nat.toDigits_ne_nil, fun _ hc =>
    isPlainChar_of_isDigit (Nat.isDigit_of_mem_toDigits (by decide) (by decide) hc)⟩

/-- Integers are written in digits, with a minus sign in front if they are negative. -/
theorem toList_toString (n : Int) : (toString n).toList = Nat.toDigits 10 n.natAbs ∨
    (toString n).toList = '-' :: Nat.toDigits 10 n.natAbs := by
  cases n with
  | ofNat n => exact .inl Nat.toList_repr
  | negSucc n =>
    refine .inr ?_
    change ("-" ++ (n + 1).repr).toList = _
    rw [String.toList_append, Nat.toList_repr]
    rfl

/-- Integers are written in plain text. -/
theorem isPlain_toString (n : Int) : isPlain (toString n).toList = true := by
  rcases toList_toString n with h | h
  · rw [h]
    exact isPlain_toDigits n.natAbs
  · rw [h, isPlain_iff, List.forall_mem_cons]
    exact ⟨List.cons_ne_nil _ _, by decide, (isPlain_iff.1 (isPlain_toDigits n.natAbs)).2⟩

end Text

namespace Register

/-- Registers have plain names. -/
theorem isPlain_name (r : Register) : Text.isPlain r.name.toList = true := by
  cases r with
  | general i =>
    revert i
    decide
  | accumulator a => cases a <;> decide

/-- Names of registers are words, and no table takes them for numbers. -/
theorem kind_name (r : Register) : Cell.Kind.of r.name.toList = .word := by
  have noEscape : Text.escapeMark ∉ r.name.toList := fun h =>
    absurd (Text.isVerbatim_of_isPlain r.isPlain_name _ h) (by decide)
  simp only [Cell.Kind.of, Text.visible_eq_self noEscape]
  clear noEscape
  cases r with
  | general i =>
    revert i
    decide +kernel
  | accumulator a => cases a <;> decide +kernel

end Register

/-! ## Columns -/

/-- Plain texts are written as they are, unless they are to be rounded. -/
theorem Cell.Kind.write_of_isPlain {kind : Kind} (hkind : kind ≠ .number) (hasSequences : Bool)
    {texts : List (List Char)} (h : ∀ text ∈ texts, Text.isPlain text = true) :
    kind.write hasSequences texts = texts := by
  have words : texts.map Text.strip = texts :=
    (List.map_congr_left fun text htext => Text.strip_of_isPlain (h text htext)).trans
      (List.map_id texts)
  have integers : texts.map writeInteger = texts := by
    refine (List.map_congr_left fun text htext => ?_).trans (List.map_id texts)
    rw [writeInteger, rewriteInteger_eq_self (Text.isVerbatim_of_isPlain (h text htext))]
    rfl
  cases kind with
  | neutral => exact words
  | word => exact words
  | integer => exact integers
  | number => exact absurd rfl hkind

namespace Cell.Alignment

open Reading in
theorem isPadded_pad (alignment : Alignment) (count : Nat) (text : List Char) :
    IsPadded text (alignment.pad count text) := by
  cases alignment with
  | left => exact ⟨0, count, rfl⟩
  | right => exact ⟨count, 0, by simp [pad]⟩

end Cell.Alignment

namespace Column

open Reading

/-- Whether a column shows texts under a heading, each on one line. -/
structure Shows (column : Column) (heading : List Char) (texts : List (List Char)) : Prop where
  /-- the heading is filled up with spaces -/
  heading : IsPadded heading column.heading
  /-- so are the texts -/
  cells : ∃ padded, column.cells = padded.map ([·]) ∧ List.Forall₂ IsPadded texts padded

/-- A column shows the texts it is made of if they are written as they are and not broken into
lines. -/
theorem shows_of {setting : Setting} (hbreak : setting.breaksLines = false) (heading : List Char)
    {kind : Cell.Kind} {texts : List (List Char)}
    (hwrite : kind.write setting.hasSequences texts = texts) :
    (Column.of setting heading kind texts).Shows heading texts := by
  have fill_eq : ∀ width, setting.fill kind.alignment width =
      fun text => [kind.alignment.pad (width - Text.shownLength text) text] := by
    intro width
    funext text
    rw [Setting.fill, hbreak]
    rfl
  have cells_eq : ∃ room, (Column.of setting heading kind texts).cells =
      texts.map fun text => [kind.alignment.pad (room - Text.shownLength text) text] := by
    simp only [Column.of, hwrite, fill_eq]
    exact ⟨_, rfl⟩
  obtain ⟨room, hcells⟩ := cells_eq
  refine ⟨kind.alignment.isPadded_pad _ heading,
    texts.map fun text => kind.alignment.pad (room - Text.shownLength text) text, ?_, ?_⟩
  · rw [hcells, List.map_map]
    rfl
  · rw [List.forall₂_map_right_iff, List.forall₂_same]
    exact fun text _ => kind.alignment.isPadded_pad _ text

/-- The cell of a row in such a column. -/
theorem Shows.getD {column : Column} {heading : List Char} {texts : List (List Char)}
    (h : column.Shows heading texts) {i : Nat} (hi : i < texts.length) :
    ∃ cell, column.cells.getD i [] = [cell] ∧ IsPadded texts[i] cell := by
  obtain ⟨padded, hcells, hpadded⟩ := h.cells
  have hi' : i < padded.length := hpadded.length_eq ▸ hi
  refine ⟨padded[i], ?_, hpadded.get hi hi'⟩
  simp [hcells, hi']

end Column

/-! ## Lines of a frame -/

namespace Style

open Reading

/-- The parts of the layout with a frame around every cell. -/
abbrev grid : Style :=
  Layout.grid.style

theorem height_singletons {padded : List (List Char)} (hne : padded ≠ []) :
    (((padded.map ([·])).map List.length).foldr max 0) = 1 := by
  induction padded with
  | nil => exact absurd rfl hne
  | cons cell rest ih =>
    cases rest with
    | nil => rfl
    | cons next rest =>
      rw [List.map_cons, List.map_cons, List.foldr_cons, ih (List.cons_ne_nil next rest)]
      rfl

theorem zipWith_headD {columns : List Column} {padded : List (List Char)}
    (hlength : columns.length = padded.length) :
    List.zipWith (fun column cell => cell.headD (List.replicate column.width ' ')) columns
      (padded.map ([·])) = padded := by
  induction columns generalizing padded with
  | nil =>
    cases padded with
    | nil => rfl
    | cons cell rest => cases hlength
  | cons column columns ih =>
    cases padded with
    | nil => cases hlength
    | cons cell rest =>
      rw [List.map_cons, List.zipWith_cons_cons, ih (Nat.succ.inj hlength)]
      rfl

theorem stripBack_barred (padded : List (List Char)) :
    Text.stripBack (barred padded) = barred padded := by
  have last : (barred padded).reverse = '|' :: (barred padded).dropLast.reverse := by
    rw [← List.reverse_concat, barred, ← List.cons_append, List.dropLast_concat]
  rw [Text.stripBack, last, List.dropWhile_cons_of_neg (by decide), ← last, List.reverse_reverse]

/-- A row of cells of one line is one line. -/
theorem rowLines_grid {columns : List Column} {padded : List (List Char)}
    (hlength : columns.length = padded.length) (hne : padded ≠ []) :
    grid.rowLines columns (padded.map ([·])) = [barred padded] := by
  rw [rowLines, height_singletons hne, firstLines, zipWith_headD hlength]
  change [Text.stripBack (barred padded)] = _
  rw [stripBack_barred]

/-- A ruler is one line, and starts with a corner and what fills it. -/
theorem exists_rulerLine (fill : Char) (hfill : Text.isLineBreak fill = false)
    {columns : List Column} (hne : columns ≠ []) :
    ∃ rest, grid.rulerLine columns (some ⟨⟨"+", "+", "+"⟩, fill⟩) = ['+' :: fill :: rest] ∧
      Text.IsOneLine ('+' :: fill :: rest) := by
  have corner : Text.IsOneLine ['+'] := by decide
  have fills : ∀ n, Text.IsOneLine (List.replicate n fill) := fun n c hc => by
    rw [List.eq_of_mem_replicate hc]
    exact hfill
  have body : Text.IsOneLine (List.intercalate ['+'] (columns.map fun column =>
      List.replicate (column.width + 2) fill)) := by
    refine Text.isOneLine_intercalate corner fun text htext => ?_
    obtain ⟨column, -, rfl⟩ := List.mem_map.1 htext
    exact fills _
  have starts : ∃ tail, List.intercalate ['+'] (columns.map fun column =>
      List.replicate (column.width + 2) fill) = fill :: tail := by
    match columns, hne with
    | [], hne => exact absurd rfl hne
    | [column], _ => exact ⟨_, List.intercalate_singleton⟩
    | column :: next :: rest, _ => exact ⟨_, List.intercalate_cons_cons⟩
  obtain ⟨tail, htail⟩ := starts
  rw [htail] at body
  refine ⟨tail ++ ['+'], ?_,
    Text.isOneLine_append.2 ⟨corner, Text.isOneLine_append.2 ⟨body, corner⟩⟩⟩
  calc grid.rulerLine columns (some ⟨⟨"+", "+", "+"⟩, fill⟩)
      = [Frame.line ⟨"+", "+", "+"⟩ (columns.map fun column =>
          List.replicate (column.width + 2) fill)] := rfl
    _ = [['+'] ++ List.intercalate ['+'] (columns.map fun column =>
          List.replicate (column.width + 2) fill) ++ ['+']] := rfl
    _ = ['+' :: fill :: (tail ++ ['+'])] := by rw [htail]; rfl

variable {columns : List Column}

/-- The rulers around rows tell a reader nothing. -/
theorem readsAs_border (hne : columns ≠ []) :
    ReadsAs (grid.rulerLine columns grid.border?) empty := by
  obtain ⟨rest, hline, hone⟩ := exists_rulerLine '-' (by decide) hne
  have border_eq : grid.rulerLine columns grid.border? = ['+' :: '-' :: rest] := hline
  rw [border_eq]
  exact ⟨List.forall_mem_singleton.2 hone, rfl⟩

theorem readsAs_between (hne : columns ≠ []) :
    ReadsAs (grid.rulerLine columns grid.between?) empty :=
  readsAs_border hne

/-- The ruler under the headings is what a reader counts tables by. -/
theorem readsAs_underline (hne : columns ≠ []) (isEmpty : Bool) :
    ReadsAs (grid.underline columns isEmpty) ⟨0, 0, 1, []⟩ := by
  obtain ⟨rest, hline, hone⟩ := exists_rulerLine '=' (by decide) hne
  have underline_eq : grid.underline columns isEmpty = ['+' :: '=' :: rest] := hline
  rw [underline_eq]
  exact ⟨List.forall_mem_singleton.2 hone, rfl⟩

/-- A row of cells of one line each is read as the texts in them, or passed over if they are
headings. -/
theorem readsAs_rowLines {row : List String} {padded : List (List Char)}
    (h : List.Forall₂ IsPadded (row.map String.toList) padded)
    (hrow : ∀ text ∈ row, IsCell text.toList) (hlength : columns.length = padded.length)
    (hne : padded ≠ []) :
    ReadsAs (grid.rowLines columns (padded.map ([·])))
      ⟨0, 0, 0, [row].filter fun row => row.head? ≠ some "Reg Name"⟩ := by
  have texts : (row.map String.toList).map String.ofList = row := by
    simp [Function.comp_def]
  rw [rowLines_grid hlength hne]
  exact texts ▸ readsAs_barred h (List.forall_mem_map.2 hrow) hne

end Style

/-! ## Tables -/

namespace Table

open Reading

/-- Where there are no dividers, every row has its lines. -/
theorem place_eq_map_some {dividers : List Bool} {blocks : List (List (List Char))}
    (hdividers : ∀ divider ∈ dividers, divider = false)
    (hlength : dividers.length = blocks.length) :
    place dividers blocks = blocks.map some := by
  induction dividers generalizing blocks with
  | nil =>
    cases blocks with
    | nil => rfl
    | cons block blocks => cases hlength
  | cons divider dividers ih =>
    obtain ⟨rfl, hrest⟩ := List.forall_mem_cons.1 hdividers
    cases blocks with
    | nil => cases hlength
    | cons block blocks => rw [place, ih hrest (Nat.succ.inj hlength), List.map_cons]

theorem ruledRows_cons_cons (style : Style) (setting : Setting) (columns : List Column) (n : Nat)
    (row next : Option (List (List Char))) (rest : List (Option (List (List Char)))) :
    ruledRows style setting columns (n + 1) (row :: next :: rest) =
      (row.getD [] ++ style.rulerLine columns style.between?) ++
        ruledRows style setting columns n (next :: rest) := by
  simp [ruledRows]

/-- The rulers between rows do not come in the way of a reader. -/
theorem readsAs_ruledRows {rows : List (List String)} {blocks : List (List (List Char))}
    (h : List.Forall₂ (fun row block => ReadsAs block ⟨0, 0, 0, [row]⟩) rows blocks)
    (setting : Setting) {columns : List Column} (hcolumns : columns ≠ []) :
    ReadsAs (ruledRows .grid setting columns rows.length (blocks.map some)) ⟨0, 0, 0, rows⟩ := by
  induction h with
  | nil => exact .nil
  | @cons row block rows blocks hblock hrest ih =>
    cases hrest with
    | nil =>
      have only : ruledRows .grid setting columns [row].length ([block].map some) = block :=
        List.append_nil block
      rw [only]
      exact hblock
    | cons hnext hrest =>
      rw [List.map_cons, List.map_cons, List.length_cons, ruledRows_cons_cons]
      exact (hblock.append (Style.readsAs_between hcolumns)).append ih

/-- The rows of a table without dividers are read as what is read in each. -/
theorem readsAs_bodyLines {table : Table} (hentries : table.entries = table.rows)
    {columns : List Column} (hcolumns : columns ≠ []) {rows : List (List String)}
    (h : List.Forall₂ (fun row block => ReadsAs block ⟨0, 0, 0, [row]⟩) rows
      (table.entries.mapIdx fun i _ =>
        Style.grid.rowLines columns (columns.map fun column => column.cells.getD i []))) :
    ReadsAs (table.bodyLines .grid columns) ⟨0, 0, 0, rows⟩ := by
  have noDivider : ∀ divider ∈ table.rows.map (isDivider ·.1), divider = false := by
    refine List.forall_mem_map.2 fun row hrow => ?_
    rw [← hentries] at hrow
    exact Bool.not_eq_true' _ ▸ (List.mem_filter.1 hrow).2
  have length : rows.length = table.entries.length := by
    rw [h.length_eq, List.length_mapIdx]
  have placed := place_eq_map_some noDivider
    (by rw [List.length_map, ← hentries, ← length, h.length_eq])
  have ruled := readsAs_ruledRows h (table.setting .grid) hcolumns
  rw [length, ← placed] at ruled
  exact ruled

end Table

/-! ## Tables of changes -/

/-- A change as a reader finds it. -/
def Change.cells (change : Change) : List String :=
  [change.register, toString change.old, toString change.new]

namespace Report

open Reading

variable {list : List Change}

/-- Whether changes are those of registers by their names. -/
def AreNamed (list : List Change) : Prop :=
  ∀ change ∈ list, ∃ r : Register, change.register = r.name

theorem AreNamed.isPlain (h : AreNamed list) :
    ∀ change ∈ list, Text.isPlain change.register.toList = true := by
  intro change hchange
  obtain ⟨r, hr⟩ := h change hchange
  rw [hr]
  exact r.isPlain_name

/-- A table of changes has no dividers. -/
theorem AreNamed.entries (h : AreNamed list) :
    (changeTable list).entries = (changeTable list).rows := by
  refine Table.entries_eq_rows fun row hrow => ?_
  obtain ⟨change, hchange, rfl⟩ := List.mem_map.1 hrow
  exact Text.isVerbatim_of_isPlain (h.isPlain change hchange)

theorem AreNamed.names (h : AreNamed list) :
    (changeTable list).names = list.map (·.register.toList) := by
  rw [Table.names, h.entries]
  exact List.map_map

/-- No text of a table of changes is broken into lines. -/
theorem AreNamed.breaksLines (h : AreNamed list) (layout : Layout) :
    ((changeTable list).setting layout).breaksLines = false := by
  have unbroken : (changeTable list).names.any (·.any Setting.isBreak) = false := by
    rw [h.names, List.any_eq_false]
    intro name hname
    obtain ⟨change, hchange, rfl⟩ := List.mem_map.1 hname
    rw [List.any_eq_true]
    rintro ⟨c, hc, hbreak⟩
    have plain := Text.isVerbatim_of_isPlain (h.isPlain change hchange) c hc
    rcases Bool.or_eq_true_iff.1 hbreak with hc | hc
    · exact absurd (of_decide_eq_true hc ▸ plain) (by decide)
    · exact absurd (of_decide_eq_true hc ▸ plain) (by decide)
  rw [Table.setting, unbroken, Bool.and_false]

theorem AreNamed.integers (h : AreNamed list) :
    (changeTable list).integers 0 = list.map (fun change => (toString change.old).toList) ∧
      (changeTable list).integers 1 = list.map fun change => (toString change.new).toList := by
  rw [Table.integers, Table.integers, h.entries]
  exact ⟨List.map_map, List.map_map⟩

/-- The names make a column of words. -/
theorem AreNamed.kind (h : AreNamed list) (hne : list ≠ []) :
    Cell.Kind.ofTexts (list.map (·.register.toList)) = .word := by
  obtain ⟨change, hchange⟩ := List.exists_mem_of_ne_nil list hne
  obtain ⟨r, hr⟩ := h change hchange
  refine Cell.Kind.ofTexts_of_word_mem (List.mem_map_of_mem hchange) ?_
  rw [hr]
  exact r.kind_name

/-- The columns of a table of changes. -/
theorem AreNamed.columns (h : AreNamed list) (hne : list ≠ []) (layout : Layout) :
    ∃ names olds news, (changeTable list).columns layout = [names, olds, news] ∧
      names.Shows "Reg Name".toList (list.map (·.register.toList)) ∧
      olds.Shows "Old Value".toList (list.map fun change => (toString change.old).toList) ∧
      news.Shows "New Value".toList (list.map fun change => (toString change.new).toList) := by
  have filled : (changeTable list).entries.isEmpty = false := by
    rw [h.entries, List.isEmpty_eq_false_iff]
    exact mt List.map_eq_nil_iff.1 hne
  have unbroken := h.breaksLines layout
  have columns_eq : (changeTable list).columns layout =
      let setting := (changeTable list).setting layout
      [Column.of setting "Reg Name".toList .word (list.map (·.register.toList)),
        Column.of setting "Old Value".toList .integer
          (list.map fun change => (toString change.old).toList),
        Column.of setting "New Value".toList .integer
          (list.map fun change => (toString change.new).toList)] := by
    rw [← h.kind hne, ← h.names, ← h.integers.1, ← h.integers.2, Table.columns, filled]
    rfl
  refine ⟨_, _, _, columns_eq, ?_, ?_, ?_⟩
  · exact Column.shows_of unbroken _ (Cell.Kind.write_of_isPlain (by decide) _
      (List.forall_mem_map.2 h.isPlain))
  · exact Column.shows_of unbroken _ (Cell.Kind.write_of_isPlain (by decide) _
      (List.forall_mem_map.2 fun _ _ => Text.isPlain_toString _))
  · exact Column.shows_of unbroken _ (Cell.Kind.write_of_isPlain (by decide) _
      (List.forall_mem_map.2 fun _ _ => Text.isPlain_toString _))

/-- The headings are read as a row and passed over. -/
theorem readsAs_headings {names olds news : Column} {n o w : List (List Char)}
    (hnames : names.Shows "Reg Name".toList n) (holds : olds.Shows "Old Value".toList o)
    (hnews : news.Shows "New Value".toList w) :
    ReadsAs (Style.grid.rowLines [names, olds, news]
      ([names, olds, news].map fun column => [column.heading])) empty := by
  have cells : ∀ text ∈ ["Reg Name", "Old Value", "New Value"], IsCell text.toList := by
    simp only [List.forall_mem_cons]
    refine ⟨?_, ?_, ?_, by simp⟩ <;> constructor <;> decide
  have padded : List.Forall₂ IsPadded
      (["Reg Name", "Old Value", "New Value"].map String.toList)
      [names.heading, olds.heading, news.heading] :=
    .cons hnames.heading (.cons holds.heading (.cons hnews.heading .nil))
  have length : [names, olds, news].length = [names.heading, olds.heading, news.heading].length :=
    rfl
  exact Style.readsAs_rowLines padded cells length (List.cons_ne_nil _ _)

/-- A row of a table of changes is read as the change. -/
theorem AreNamed.readsAs_row (h : AreNamed list) {names olds news : Column}
    {n o w : List Char} (hnames : names.Shows n (list.map (·.register.toList)))
    (holds : olds.Shows o (list.map fun change => (toString change.old).toList))
    (hnews : news.Shows w (list.map fun change => (toString change.new).toList))
    {i : Nat} (hi : i < list.length) :
    ReadsAs (Style.grid.rowLines [names, olds, news]
      ([names, olds, news].map fun column => column.cells.getD i []))
      ⟨0, 0, 0, [list[i].cells]⟩ := by
  obtain ⟨name, hname, pname⟩ := hnames.getD (i := i) (by simpa using hi)
  obtain ⟨old, hold, pold⟩ := holds.getD (i := i) (by simpa using hi)
  obtain ⟨new, hnew, pnew⟩ := hnews.getD (i := i) (by simpa using hi)
  rw [List.getElem_map] at pname pold pnew
  have plain := h.isPlain _ (List.getElem_mem hi)
  have cells : ∀ text ∈ list[i].cells, IsCell text.toList := by
    simp only [Change.cells, List.forall_mem_cons]
    exact ⟨Text.isCell_of_isPlain plain, Text.isCell_of_isPlain (Text.isPlain_toString _),
      Text.isCell_of_isPlain (Text.isPlain_toString _), by simp⟩
  have notHeadings : list[i].cells.head? ≠ some "Reg Name" := by
    intro hhead
    have hname : list[i].register = "Reg Name" := Option.some.inj hhead
    rw [hname] at plain
    exact absurd plain (by decide)
  have padded : List.Forall₂ IsPadded (list[i].cells.map String.toList) [name, old, new] :=
    .cons pname (.cons pold (.cons pnew .nil))
  have length : [names, olds, news].length = [name, old, new].length := rfl
  have row := Style.readsAs_rowLines padded cells length (List.cons_ne_nil _ _)
  rw [List.filter_cons_of_pos (by simpa using notHeadings)] at row
  simp only [List.map_cons, List.map_nil, hname, hold, hnew]
  exact row

/-- **Tables are found again.** In a table of changes a reader finds one table, and in its rows the
name of the register and the values before and after, in order. -/
theorem readsAs_changeTable (h : AreNamed list) (hne : list ≠ []) :
    ReadsAs ((changeTable list).lines .grid) ⟨0, 0, 1, list.map Change.cells⟩ := by
  obtain ⟨names, olds, news, hcolumns, hnames, holds, hnews⟩ := h.columns hne .grid
  have ne : [names, olds, news] ≠ [] := List.cons_ne_nil _ _
  have length : (changeTable list).entries.length = list.length := by
    rw [h.entries]
    exact List.length_map _
  have rows : List.Forall₂ (fun row block => ReadsAs block ⟨0, 0, 0, [row]⟩)
      (list.map Change.cells) ((changeTable list).entries.mapIdx fun i _ =>
        Style.grid.rowLines [names, olds, news]
          ([names, olds, news].map fun column => column.cells.getD i [])) := by
    refine List.forall₂_iff_get.2 ⟨by simp [length], fun i hi _ => ?_⟩
    rw [List.get_eq_getElem, List.get_eq_getElem, List.getElem_map, List.getElem_mapIdx]
    exact h.readsAs_row hnames holds hnews (by simpa using hi)
  have body := Table.readsAs_bodyLines h.entries ne rows
  rw [Table.lines, hcolumns]
  have whole := ((((Style.readsAs_border ne).append (readsAs_headings hnames holds hnews)).append
    (Style.readsAs_underline ne (changeTable list).entries.isEmpty)).append body).append
    (Style.readsAs_border ne)
  rw [empty_append, empty_append, append_empty] at whole
  exact whole

end Report

end TinyMips
