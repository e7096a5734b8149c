import Mathlib.Data.List.Forall2
import TinyMips.Proofs.Records
import TinyMips.Text.Blank

/-!
# Reading printed text

A reader of printed text goes by the start of each line: it counts the instructions, the errors and
the tables, and takes the rows of the tables apart at their bars (`Reading.ofText`). Lines are read
one by one, so what is found in two texts is found in both of them together
(`Reading.ReadsAs.append`). The main statement is that cells are found again in the row that they
are printed in (`Reading.cells_barred`).
-/

namespace TinyMips

/-! ## Cutting and trimming -/

namespace Text

/-- The text without the characters of a kind on either side of it. -/
def trim (isEdge : Char → Bool) (s : List Char) : List Char :=
  ((s.dropWhile isEdge).reverse.dropWhile isEdge).reverse

/-- Trimming takes off what is of the kind, up to a text that neither starts nor ends in it. -/
theorem trim_append {isEdge : Char → Bool} {front body back : List Char}
    (hfront : ∀ c ∈ front, isEdge c) (hback : ∀ c ∈ back, isEdge c) (hne : body ≠ [])
    (hhead : body.head?.any isEdge = false) (hlast : body.getLast?.any isEdge = false) :
    trim isEdge (front ++ (body ++ back)) = body := by
  have first : (body ++ back).dropWhile isEdge = body ++ back := by
    cases body with
    | nil => exact absurd rfl hne
    | cons c rest => exact List.dropWhile_cons_of_neg (Bool.not_eq_true _ ▸ hhead)
  have last : body.reverse.dropWhile isEdge = body.reverse := by
    rw [← List.head?_reverse] at hlast
    cases hbody : body.reverse with
    | nil => rfl
    | cons c rest =>
      rw [hbody] at hlast
      exact List.dropWhile_cons_of_neg (Bool.not_eq_true _ ▸ hlast)
  rw [trim, List.dropWhile_append_of_pos hfront, first, List.reverse_append,
    List.dropWhile_append_of_pos (by simpa using hback), last, List.reverse_reverse]

theorem cut_ne_nil (isCut : Char → Bool) (s : List Char) : cut isCut s ≠ [] := by
  cases s with
  | nil => simp [cut]
  | cons c rest =>
    rw [cut]
    split
    · simp
    · cases cut isCut rest <;> simp [consLine]

theorem cut_eq_splitOnP (isCut : Char → Bool) (s : List Char) :
    cut isCut s = s.splitOnP isCut := by
  induction s with
  | nil => rfl
  | cons c rest ih =>
    rw [cut, List.splitOnP_cons_eq_if_modifyHead, ← ih]
    cases h : cut isCut rest with
    | nil => exact absurd h (cut_ne_nil isCut rest)
    | cons first later => rfl

/-- Texts that are put together with a character between any two are found again by cutting at that
character. -/
theorem cut_intercalate {c : Char} {texts : List (List Char)} (h : ∀ text ∈ texts, c ∉ text)
    (hne : texts ≠ []) : cut (· = c) (List.intercalate [c] texts) = texts := by
  rw [cut_eq_splitOnP]
  exact List.splitOn_intercalate c h hne

end Text

/-! ## Readings -/

/-- What is found in printed text. -/
structure Reading where
  /-- how many instructions are announced -/
  instructions : Nat
  /-- how many errors are reported -/
  errors : Nat
  /-- how many tables there are -/
  tables : Nat
  /-- the cells of the rows of the tables, without their headings -/
  rows : List (List String)
  deriving DecidableEq, Repr

namespace Reading

/-- Whether a line starts with a mark. -/
def startsWith (mark : String) (line : List Char) : Bool :=
  mark.toList.isPrefixOf line

/-- The cells of a line that are between its bars, without the blanks around them. -/
def cells (line : List Char) : List String :=
  (Text.cut (· = '|') (Text.trim (· = '|') line)).map fun cell => String.ofList (Text.strip cell)

/-- What is found in lines. A line that starts with a bar is a row; it is one of headings if its
first cell is the first heading. -/
def ofLines (ls : List (List Char)) : Reading where
  instructions := ls.countP (startsWith "INSTRUCTION: ")
  errors := ls.countP (startsWith "[ERR]: ")
  tables := ls.countP (startsWith "+=")
  rows := ((ls.filter (startsWith "|")).map cells).filter fun row => row.head? ≠ some "Reg Name"

/-- What is found in a text. -/
def ofText (s : String) : Reading :=
  ofLines (Text.lines s.toList)

/-- Nothing is found. -/
def empty : Reading :=
  ⟨0, 0, 0, []⟩

/-- What is found in one text and then in another. -/
def append (a b : Reading) : Reading where
  instructions := a.instructions + b.instructions
  errors := a.errors + b.errors
  tables := a.tables + b.tables
  rows := a.rows ++ b.rows

@[simp] theorem empty_append (a : Reading) : empty.append a = a := by
  simp [empty, append]

@[simp] theorem append_empty (a : Reading) : a.append empty = a := by
  simp [empty, append]

theorem ofLines_append (a b : List (List Char)) :
    ofLines (a ++ b) = (ofLines a).append (ofLines b) := by
  simp [ofLines, append]

/-- Whether lines have no line breaks and this is found in them. -/
structure ReadsAs (ls : List (List Char)) (reading : Reading) : Prop where
  /-- the lines have no line breaks -/
  isOneLine : ∀ line ∈ ls, Text.IsOneLine line
  /-- this is found in them -/
  reading : ofLines ls = reading

namespace ReadsAs

variable {a b ls : List (List Char)} {ra rb reading : Reading}

theorem nil : ReadsAs [] empty :=
  ⟨by simp, rfl⟩

theorem append (ha : ReadsAs a ra) (hb : ReadsAs b rb) : ReadsAs (a ++ b) (ra.append rb) :=
  ⟨List.forall_mem_append.2 ⟨ha.isOneLine, hb.isOneLine⟩,
    by rw [ofLines_append, ha.reading, hb.reading]⟩

end ReadsAs

/-! ## Rows between bars -/

/-- Whether a text can be a cell: it is not empty, has no bars and no line breaks, and neither
starts nor ends with a blank. -/
structure IsCell (text : List Char) : Prop where
  /-- the text is not empty -/
  ne_nil : text ≠ []
  /-- the text does not start with a blank -/
  head : text.head?.any Text.isBlank = false
  /-- the text does not end with a blank -/
  last : text.getLast?.any Text.isBlank = false
  /-- the text has no bars -/
  bar : '|' ∉ text
  /-- the text has no line breaks -/
  isOneLine : Text.IsOneLine text

/-- A cell with a margin on either side. -/
def spaced (cell : List Char) : List Char :=
  ' ' :: (cell ++ [' '])

/-- A text with spaces on either side. -/
def IsPadded (text cell : List Char) : Prop :=
  ∃ a b, cell = List.replicate a ' ' ++ (text ++ List.replicate b ' ')

theorem IsPadded.strip {text cell : List Char} (h : IsPadded text cell) (htext : IsCell text) :
    Text.strip cell = text := by
  obtain ⟨a, b, rfl⟩ := h
  have blank : ∀ n, ∀ c ∈ List.replicate n ' ', Text.isBlank c = true := fun n c hc => by
    rw [List.eq_of_mem_replicate hc]
    decide
  exact Text.trim_append (blank a) (blank b) htext.ne_nil htext.head htext.last

theorem IsPadded.spaced {text cell : List Char} (h : IsPadded text cell) :
    IsPadded text (spaced cell) := by
  obtain ⟨a, b, rfl⟩ := h
  refine ⟨a + 1, b + 1, ?_⟩
  rw [List.replicate_succ, List.replicate_succ', Reading.spaced]
  simp only [List.cons_append, List.append_assoc]

theorem IsPadded.bar {text cell : List Char} (h : IsPadded text cell) (htext : IsCell text) :
    '|' ∉ cell := by
  obtain ⟨a, b, rfl⟩ := h
  simp [htext.bar]

theorem IsPadded.isOneLine {text cell : List Char} (h : IsPadded text cell) (htext : IsCell text) :
    Text.IsOneLine cell := by
  obtain ⟨a, b, rfl⟩ := h
  have space : ∀ n, Text.IsOneLine (List.replicate n ' ') := fun n c hc => by
    rw [List.eq_of_mem_replicate hc]
    decide
  exact Text.isOneLine_append.2
    ⟨space a, Text.isOneLine_append.2 ⟨htext.isOneLine, space b⟩⟩

/-- Cells with their margins, between bars. -/
def barred (padded : List (List Char)) : List Char :=
  '|' :: (List.intercalate ['|'] (padded.map spaced) ++ ['|'])

/-- A row between bars has margins at its ends. -/
theorem ends_intercalate {padded : List (List Char)} (hne : padded ≠ []) :
    let body := List.intercalate ['|'] (padded.map spaced)
    body.head? = some ' ' ∧ body.getLast? = some ' ' := by
  induction padded with
  | nil => exact absurd rfl hne
  | cons cell rest ih =>
    cases rest with
    | nil =>
      simp only [List.map_cons, List.map_nil, List.intercalate_singleton]
      exact ⟨rfl, List.getLast?_concat (l := ' ' :: cell)⟩
    | cons next rest =>
      obtain ⟨-, last⟩ := ih (List.cons_ne_nil next rest)
      rw [List.map_cons] at last
      simp only [List.map_cons, List.intercalate_cons_cons]
      refine ⟨rfl, ?_⟩
      rw [List.getLast?_append, last]
      rfl

section Row

variable {texts padded : List (List Char)}

theorem forall_spaced (h : List.Forall₂ IsPadded texts padded)
    (htexts : ∀ text ∈ texts, IsCell text) :
    ∀ cell ∈ padded.map spaced, ∃ text, IsCell text ∧ IsPadded text cell := by
  induction h with
  | nil => simp
  | cons hcell _ ih =>
    obtain ⟨htext, hrest⟩ := List.forall_mem_cons.1 htexts
    exact List.forall_mem_cons.2 ⟨⟨_, htext, hcell.spaced⟩, ih hrest⟩

theorem map_strip_spaced (h : List.Forall₂ IsPadded texts padded)
    (htexts : ∀ text ∈ texts, IsCell text) : (padded.map spaced).map Text.strip = texts := by
  induction h with
  | nil => rfl
  | cons hcell _ ih =>
    obtain ⟨htext, hrest⟩ := List.forall_mem_cons.1 htexts
    rw [List.map_cons, List.map_cons, ih hrest, hcell.spaced.strip htext]

/-- **Cells are found again.** The cells of a row between bars are the texts that are printed in it,
however many spaces are around them. -/
theorem cells_barred (h : List.Forall₂ IsPadded texts padded)
    (htexts : ∀ text ∈ texts, IsCell text) (hne : padded ≠ []) :
    cells (barred padded) = texts.map String.ofList := by
  obtain ⟨head, last⟩ := ends_intercalate hne
  have body_ne : List.intercalate ['|'] (padded.map spaced) ≠ [] := by
    intro hnil
    rw [hnil] at head
    cases head
  have edge : ∀ c ∈ ['|'], decide (c = '|') = true := by simp
  have trimmed : Text.trim (· = '|') (barred padded) = List.intercalate ['|'] (padded.map spaced) :=
    Text.trim_append edge edge body_ne (by simp [head]) (by simp [last])
  have noBar : ∀ cell ∈ padded.map spaced, '|' ∉ cell := fun cell hcell => by
    obtain ⟨text, htext, hpadded⟩ := forall_spaced h htexts cell hcell
    exact hpadded.bar htext
  rw [cells, trimmed, Text.cut_intercalate noBar (by simpa using hne)]
  calc (padded.map spaced).map (fun cell => String.ofList (Text.strip cell))
      = ((padded.map spaced).map Text.strip).map String.ofList := by
        simp only [List.map_map, Function.comp_def]
    _ = texts.map String.ofList := by rw [map_strip_spaced h htexts]

example : cells "|  $t0 |   1 | -2 |".toList = ["$t0", "1", "-2"] := by decide +kernel

theorem isOneLine_barred (h : List.Forall₂ IsPadded texts padded)
    (htexts : ∀ text ∈ texts, IsCell text) : Text.IsOneLine (barred padded) := by
  have bar : Text.IsOneLine ['|'] := by decide
  have body : Text.IsOneLine (List.intercalate ['|'] (padded.map spaced)) :=
    Text.isOneLine_intercalate bar fun cell hcell => by
      obtain ⟨text, htext, hpadded⟩ := forall_spaced h htexts cell hcell
      exact hpadded.isOneLine htext
  exact Text.isOneLine_append.2 ⟨bar, Text.isOneLine_append.2 ⟨body, bar⟩⟩

/-- A row of headings is passed over, and any other is kept. -/
theorem readsAs_barred (h : List.Forall₂ IsPadded texts padded)
    (htexts : ∀ text ∈ texts, IsCell text) (hne : padded ≠ []) :
    ReadsAs [barred padded] ⟨0, 0, 0,
      [texts.map String.ofList].filter fun row => row.head? ≠ some "Reg Name"⟩ := by
  refine ⟨List.forall_mem_singleton.2 (isOneLine_barred h htexts), ?_⟩
  rw [← cells_barred h htexts hne]
  rfl

end Row

end Reading

end TinyMips
