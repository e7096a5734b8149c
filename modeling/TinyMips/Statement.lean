import TinyMips.Text.Blank
import TinyMips.Text.Digit
import TinyMips.Text.Gap
import TinyMips.Text.Line
import TinyMips.Text.Quoted
import TinyMips.Text.Tab

/-!
# Statements

A line of a program is blank, a statement, or malformed. A statement is a mnemonic and the text
of its operands; a comment runs from `#` to the end of the line. What the mnemonic means and
whether the operands fit it is not looked at here.
-/

namespace TinyMips

/-- A line that asks for an instruction. -/
structure Statement where
  /-- the number of the line -/
  line : Int
  /-- the mnemonic -/
  opcode : String
  /-- the operands, without the blanks around them -/
  operands : String
  deriving DecidableEq, Repr

/-- A line that is neither blank nor a statement. -/
structure Malformed where
  /-- the number of the line -/
  line : Int
  /-- the line, without the blanks around it -/
  text : String
  deriving DecidableEq, Repr

/-- The words for a malformed line. -/
def Malformed.message (m : Malformed) : String :=
  "Line " ++ toString m.line ++ ": cannot parse " ++ Text.quoted m.text

namespace Statement

/-- Whether at most a comment is left of the line. -/
def isTail (s : List Char) : Bool :=
  match Text.skipGap s with
  | '#' :: rest => Text.atEnd (rest.dropWhile (· ≠ '\n'))
  | rest => rest.isEmpty

/-- The characters that may follow the first letter of a mnemonic. -/
def isMnemonicChar (c : Char) : Bool :=
  Text.isAsciiAlphanumeric c || c = '_'

/-- Reads a mnemonic: a letter, then as many letters, digits and underscores as follow. -/
def readMnemonic? (s : List Char) : Option (List Char × List Char) :=
  match Text.skipGap s with
  | c :: rest =>
    if Text.isAsciiLetter c then
      some (c :: rest.takeWhile isMnemonicChar, rest.dropWhile isMnemonicChar)
    else none
  | [] => none

/-- Reads the text of the operands, which reaches to the comment or to the end. There is none if
the next token starts with a blank or a comment. -/
def readOperands (s : List Char) : List Char × List Char :=
  match Text.skipGap s with
  | c :: rest =>
    if c = '#' ∨ Text.isBlank c then ([], s)
    else (Text.strip (c :: rest.takeWhile (· ≠ '#')), rest.dropWhile (· ≠ '#'))
  | [] => ([], s)

/-- Reads a mnemonic and its operands from a line without tabs. -/
def readParts? (s : List Char) : Option (List Char × List Char) := do
  let (mnemonic, s) ← readMnemonic? s
  let (operands, s) := readOperands s
  if isTail s then some (mnemonic, operands) else none

/-- Reads a line of a program: none if the line is blank. -/
def ofLine? (line : Int) (text : List Char) : Except Malformed (Option Statement) :=
  let s := Text.expandTabs text
  if isTail s then .ok none
  else
    match readParts? s with
    | some (mnemonic, operands) =>
      .ok (some { line, opcode := String.ofList mnemonic, operands := String.ofList operands })
    | none => .error { line, text := String.ofList (Text.strip text) }

end Statement

/-! ## Programs -/

/-- A line of a program that is not blank. -/
inductive Item where
  /-- a statement -/
  | statement (s : Statement)
  /-- a line that cannot be read -/
  | malformed (m : Malformed)
  deriving DecidableEq, Repr

namespace Item

/-- What a line holds. -/
def ofLine? (line : Int) (text : List Char) : Option Item :=
  match Statement.ofLine? line text with
  | .ok none => none
  | .ok (some s) => some (.statement s)
  | .error m => some (.malformed m)

/-- What lines hold that are numbered from `first`. -/
def ofLines (first : Int) : List (List Char) → List Item
  | [] => []
  | text :: rest => (ofLine? first text).toList ++ ofLines (first + 1) rest

/-- What the lines of a program hold, numbered from one. -/
def ofSource (source : String) : List Item :=
  ofLines 1 (Text.lines source.toList)

end Item

end TinyMips
