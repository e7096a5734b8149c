import TinyMips.Binary64
import TinyMips.Numeral
import TinyMips.Text.Ascii
import TinyMips.Text.Blank
import TinyMips.Text.Escape

/-!
# Cells

What the texts in a column of a table are, and how that bears on their looks. Texts are words,
which are set on the left. Where all texts of a column are integers, they are set on the right;
where all are numbers, these are also rounded and their points set one below the other. An integer
in colour is written anew, which it may be unfit for.

The main statements are that one word makes a column of words (`Kind.ofTexts_of_word_mem`), that
words lose nothing but the blanks on either side (`Kind.write_word`), and that texts without escape
sequences can be written (`Kind.fault?_eq_none`).
-/

namespace TinyMips.Cell

/-! ## Numbers -/

/-- A space, or a control that moves the print position. -/
def isSpace (c : Char) : Bool :=
  c = ' ' || ('\t' ≤ c && c ≤ '\r')

/-- A character with digits of all scripts and blanks of all widths written as those of ASCII. -/
def plainChar (c : Char) : Char :=
  if c.toNat < 128 then c
  else
    match Text.decimalValue? c with
    | some v => Char.ofNat ('0'.toNat + v)
    | none => if Text.isBlank c then ' ' else c

/-- A text in ASCII as far as it is a number, without the spaces on either side. -/
def plain (s : List Char) : List Char :=
  (((s.map plainChar).dropWhile isSpace).reverse.dropWhile isSpace).reverse

/-- A text without the underscores between its digits. Underscores may stand nowhere else. -/
def joinDigits? (afterDigit : Bool) : List Char → Option (List Char)
  | [] => some []
  | '_' :: c :: rest =>
    if afterDigit && Text.isAsciiDigit c then (joinDigits? true rest).map (c :: ·) else none
  | c :: rest =>
    if c = '_' then none else (joinDigits? (Text.isAsciiDigit c) rest).map (c :: ·)

/-- Whether a text is an integer that can be read. -/
def isInteger (s : List Char) : Bool :=
  match joinDigits? false (plain s) with
  | none => false
  | some t =>
    let digits := (Numeral.readSign t).2
    digits ≠ [] && digits.all Text.isAsciiDigit && digits.length ≤ Numeral.digitLimit

/-- The exponent that ends a numeral: none, or a letter, perhaps a sign, and digits. -/
def exponent? : List Char → Option Int
  | [] => some 0
  | mark :: rest =>
    let (isNegative, digits) := Numeral.readSign rest
    if (mark = 'e' ∨ mark = 'E') ∧ digits ≠ [] ∧ digits.all Text.isAsciiDigit then
      let n : Int := Numeral.ofDigits 10 (Numeral.leadingDigits digits)
      some (if isNegative then -n else n)
    else none

/-- The number that a text stands for. -/
def number? (s : List Char) : Option Binary64 := do
  let (isNegative, t) := Numeral.readSign (← joinDigits? false (plain s))
  let name := String.ofList (t.map Char.toLower)
  if name = "inf" ∨ name = "infinity" then return .infinite isNegative
  if name = "nan" then return .nan
  let whole := t.takeWhile Text.isAsciiDigit
  let (part, rest) :=
    match t.dropWhile Text.isAsciiDigit with
    | '.' :: rest => (rest.takeWhile Text.isAsciiDigit, rest.dropWhile Text.isAsciiDigit)
    | rest => ([], rest)
  let digits := Numeral.leadingDigits (whole ++ part)
  if digits = [] then none
  let exponent ← exponent? rest
  return .ofDecimal isNegative (Numeral.ofDigits 10 digits) (exponent - part.length)

/-- The names of the values without digits that count as numbers. -/
def numberNames : List String := ["inf", "-inf", "nan"]

/-- Whether a text is a number. Numerals out of reach are none. -/
def isNumber (s : List Char) : Bool :=
  match number? s with
  | none => false
  | some (.finite ..) => true
  | some _ => numberNames.contains (String.ofList (s.map Char.toLower))

/-- What follows groups of a comma and three digits. -/
def afterGroups : List Char → List Char
  | ',' :: a :: b :: c :: rest =>
    if [a, b, c].all Text.isAsciiDigit then afterGroups rest else ',' :: a :: b :: c :: rest
  | s => s

/-- Whether a text is a numeral with commas between groups of three digits, and perhaps a point.
A line feed may end it, and may also stand alone. -/
def isGrouped (s : List Char) : Bool :=
  let body := if s.getLast? = some '\n' then s.dropLast else s
  let t := (Numeral.readSign body).2
  let lead := t.takeWhile Text.isAsciiDigit
  body = [] || (1 ≤ lead.length && lead.length ≤ 3 &&
    match afterGroups (t.dropWhile Text.isAsciiDigit) with
    | [] => true
    | c :: part => c = '.' && part.all Text.isAsciiDigit)

/-! ## Kinds -/

/-- What a text is. -/
inductive Kind where
  /-- nothing, or the name of a truth value -/
  | neutral
  /-- an integer -/
  | integer
  /-- a number -/
  | number
  /-- anything else -/
  | word
  deriving DecidableEq, Repr

/-- The side of its cell on which a text stands. -/
inductive Alignment where
  | left
  | right
  deriving DecidableEq, Repr

namespace Kind

/-- The kind of a text. -/
def of (s : List Char) : Kind :=
  let t := Text.visible s
  if t = [] ∨ t = "True".toList ∨ t = "False".toList then .neutral
  else if isInteger t || (isGrouped t && !t.contains '.') then .integer
  else if isNumber t || isGrouped t then .number
  else .word

/-- The least kind that two kinds have in common. -/
def join : Kind → Kind → Kind
  | .word, _ | _, .word => .word
  | .number, _ | _, .number => .number
  | .integer, _ | _, .integer => .integer
  | .neutral, .neutral => .neutral

/-- The kind of a column of texts. -/
def ofTexts (texts : List (List Char)) : Kind :=
  (texts.map of).foldr join .neutral

/-- The side on which a kind is set. -/
def alignment : Kind → Alignment
  | .integer | .number => .right
  | .neutral | .word => .left

end Kind

/-! ## Integers in colour -/

/-- The characters of a kind that a text starts with, of which there is at least one, and what
follows them. -/
def run? (isKind : Char → Bool) (s : List Char) : Option (List Char × List Char) :=
  if (s.takeWhile isKind).isEmpty then none
  else some (s.takeWhile isKind, s.dropWhile isKind)

/-- A numeral after a colour, both written in ASCII. -/
structure Coloured where
  /-- the sequence that sets the colour -/
  colour : List Char
  /-- the numeral -/
  digits : List Char
  /-- what follows, which starts with an escape sequence -/
  rest : List Char

/-- The coloured numeral that a text in ASCII starts with. The colour is an escape sequence, an
opening bracket, a number and a letter `m`. -/
def colouredAt? (s : List Char) : Option Coloured :=
  match s with
  | '\\' :: s => do
    let (marks, s) ← run? (fun c => c = 'x' || c = 'X') s
    let (code, s) ← run? (fun c => (Text.hexValue? c).isSome) s
    let (bracket, s) ← run? (· = '[') s
    if bracket.length ≠ 1 then none
    let (number, s) ← run? Text.isAsciiDigit s
    let (letters, s) ← run? (fun c => c = 'm' || c = 'M') s
    let (digits, rest) ← run? (fun c => Text.isAsciiDigit c || c = '.') s
    if rest.head? ≠ some '\\' then none
    return { colour := '\\' :: marks ++ code ++ bracket ++ number ++ letters, digits, rest }
  | _ => none

/-- The first coloured numeral of a text in ASCII. -/
def coloured? : List Char → Option Coloured
  | [] => none
  | c :: s =>
    match colouredAt? (c :: s) with
    | some found => some found
    | none => coloured? s

/-- Why a coloured integer cannot be written. -/
inductive Fault where
  /-- its numeral cannot be read -/
  | numeral (e : Numeral.Error)
  /-- its colour is set by a sequence with too few digits -/
  | colour (e : Text.BrokenEscape)
  deriving DecidableEq, Repr

/-- The words for a coloured integer that cannot be written. -/
def Fault.message : Fault → String
  | .numeral e => e.message
  | .colour e => e.message

/-- An integer as it is written in a table. From a coloured one leading zeros are dropped, and all
that is in front of its colour; any other is left as it is. -/
def rewriteInteger (s : List Char) : Except Fault (List Char) :=
  match coloured? (Text.toAscii s) with
  | none => .ok s
  | some { colour, digits, rest } =>
    if digits.all Text.isAsciiDigit then do
      let n ← (Numeral.readDecimal (Numeral.leadingDigits digits)).mapError .numeral
      (Text.ofAscii 0 (colour ++ Nat.toDigits 10 n ++ rest)).mapError .colour
    else .ok s

/-- An integer as it is written in a table. One that cannot be written is left as it is. -/
def writeInteger (s : List Char) : List Char :=
  (rewriteInteger s).toOption.getD s

/-- Why an integer cannot be written, if it cannot. -/
def integerFault? (s : List Char) : Option Fault :=
  match rewriteInteger s with
  | .ok _ => none
  | .error fault => some fault

/-- There is no coloured numeral without an escape sequence. -/
theorem coloured?_eq_none {s : List Char} (h : '\\' ∉ s) : coloured? s = none := by
  induction s with
  | nil => rfl
  | cons c rest ih =>
    rw [List.mem_cons, not_or] at h
    have colouredAt?_eq_none : colouredAt? (c :: rest) = none := by
      unfold colouredAt?
      split
      · next heq => exact absurd (List.cons.inj heq).1.symm h.1
      · rfl
    rw [coloured?, colouredAt?_eq_none]
    exact ih h.2

theorem rewriteInteger_eq_self {s : List Char} (h : ∀ c ∈ s, Text.isVerbatim c) :
    rewriteInteger s = .ok s := by
  have noEscape : '\\' ∉ s := fun hs => absurd (h _ hs) (by decide)
  rw [rewriteInteger, Text.toAscii_eq_self h, coloured?_eq_none noEscape]

theorem integerFault?_eq_none {s : List Char} (h : ∀ c ∈ s, Text.isVerbatim c) :
    integerFault? s = none := by
  rw [integerFault?, rewriteInteger_eq_self h]

/-! ## Numbers in columns -/

/-- Puts a text in the place of every occurrence of another. -/
def replaceAll (old new : List Char) : List Char → List Char
  | [] => []
  | c :: rest =>
    if old.isPrefixOf (c :: rest) then new ++ replaceAll old new (rest.drop (old.length - 1))
    else c :: replaceAll old new rest
termination_by s => s.length
decreasing_by
  all_goals simp only [List.length_drop, List.length_cons]
  all_goals omega

/-- A number as it is written in a table: rounded, and without commas. In a table with control
sequences or links only what is shown is rounded, and commas make it stay as it is. -/
def writeNumber (hasSequences : Bool) (s : List Char) : List Char :=
  let t := if hasSequences then Text.visible s else s.filter (· ≠ ',')
  match number? t with
  | none => s
  | some x =>
    if hasSequences then replaceAll t x.briefText.toList s else x.briefText.toList

/-- The length of a text from the last character of a kind on. -/
def sizeFrom (isMark : Char → Bool) (s : List Char) : Nat :=
  if s.any isMark then (s.reverse.takeWhile (!isMark ·)).length + 1 else 0

/-- The length of a number from its point on, or else from its exponent on. -/
def tailSize (s : List Char) : Nat :=
  let t := Text.visible s
  if (isNumber t || isGrouped t) && !isInteger t then
    if t.contains '.' then sizeFrom (· = '.') t else sizeFrom (fun c => c = 'e' || c = 'E') t
  else 0

/-- The texts of a column of a kind as they are written. -/
def Kind.write (hasSequences : Bool) : Kind → List (List Char) → List (List Char)
  | .neutral, texts | .word, texts => texts.map Text.strip
  | .integer, texts => texts.map writeInteger
  | .number, texts =>
    let numbers := texts.map (writeNumber hasSequences)
    let room := (numbers.map tailSize).foldr max 0
    numbers.map fun s => s ++ List.replicate (room - tailSize s) ' '

namespace Kind

/-- Why the texts of a column of a kind cannot be written, if they cannot. -/
def fault? : Kind → List (List Char) → Option Fault
  | .integer, texts => texts.findSome? integerFault?
  | _, _ => none

theorem fault?_eq_none (k : Kind) {texts : List (List Char)}
    (h : ∀ s ∈ texts, ∀ c ∈ s, Text.isVerbatim c) : k.fault? texts = none := by
  cases k with
  | integer => exact List.findSome?_eq_none_iff.2 fun s hs => integerFault?_eq_none (h s hs)
  | neutral | number | word => rfl

theorem join_word (k : Kind) : join k .word = .word := by
  cases k <;> rfl

/-- One word makes a column of words. -/
theorem ofTexts_of_word_mem {s : List Char} {texts : List (List Char)} (hs : s ∈ texts)
    (h : of s = .word) : ofTexts texts = .word := by
  induction texts with
  | nil => cases hs
  | cons first rest ih =>
    change join (of first) (ofTexts rest) = .word
    rcases List.mem_cons.1 hs with rfl | hs
    · rw [h]
      rfl
    · rw [ih hs, join_word]

/-- Words are written without the blanks on either side. -/
theorem write_word (hasSequences : Bool) (texts : List (List Char)) :
    write hasSequences .word texts = texts.map Text.strip := rfl

end Kind

end TinyMips.Cell
