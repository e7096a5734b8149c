/-!
# Lines

Three ways of seeing a text as lines. `lines` cuts it at every line break and drops the breaks;
`records` cuts after line feeds only and keeps them, as a reader of a stream does; and
`unifyBreaks` writes every break of the carriage-return kinds as one line feed. `cut` cuts a text
at any characters. The main statement is that nothing is lost between records (`flatten_records`).
-/

namespace TinyMips.Text

/-- The characters that end a line; a carriage return and the line feed after it end one line
together. -/
def isLineBreak (c : Char) : Bool :=
  let n := c.toNat
  (10 ≤ n && n ≤ 13) || (28 ≤ n && n ≤ 30) || n == 0x85 || n == 0x2028 || n == 0x2029

/-- Puts a character in front of the first line; where there is none, it makes one. -/
def consLine (c : Char) : List (List Char) → List (List Char)
  | [] => [[c]]
  | line :: rest => (c :: line) :: rest

/-- A text cut at the characters of a kind, which are dropped. -/
def cut (isCut : Char → Bool) : List Char → List (List Char)
  | [] => [[]]
  | c :: rest => if isCut c then [] :: cut isCut rest else consLine c (cut isCut rest)

/-- A line without the carriage return at its end. -/
def dropReturn (line : List Char) : List Char :=
  if line.getLast? = some '\r' then line.dropLast else line

/-- The lines of a text, without their line breaks. A break at the very end opens no new line. -/
def lines : List Char → List (List Char)
  | [] => []
  | '\r' :: '\n' :: rest => [] :: lines rest
  | c :: rest => if isLineBreak c then [] :: lines rest else consLine c (lines rest)

/-- The stretches of a text up to and with each line feed; the last may lack it. -/
def records : List Char → List (List Char)
  | [] => []
  | c :: rest => if c = '\n' then [c] :: records rest else consLine c (records rest)

/-- The text with one line feed for each line feed, carriage return, or pair of the two. -/
def unifyBreaks : List Char → List Char
  | [] => []
  | '\r' :: '\n' :: rest => '\n' :: unifyBreaks rest
  | c :: rest => (if c = '\r' then '\n' else c) :: unifyBreaks rest

/-- A text without characters to cut it at stays in one piece. -/
theorem cut_eq_singleton {isCut : Char → Bool} {s : List Char} (h : ∀ c ∈ s, isCut c = false) :
    cut isCut s = [s] := by
  induction s with
  | nil => rfl
  | cons c rest ih =>
    rw [cut, h c List.mem_cons_self, ih fun d hd => h d (List.mem_cons_of_mem c hd)]
    rfl

theorem flatten_consLine (c : Char) (ls : List (List Char)) :
    (consLine c ls).flatten = c :: ls.flatten := by
  cases ls <;> simp [consLine]

/-- The records of a text, one after the other, are the text. -/
theorem flatten_records (s : List Char) : (records s).flatten = s := by
  induction s with
  | nil => rfl
  | cons c rest ih =>
    by_cases h : c = '\n'
    · simp [records, h, ih]
    · simp [records, h, flatten_consLine, ih]

end TinyMips.Text
