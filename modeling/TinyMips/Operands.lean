import TinyMips.Fault
import TinyMips.Text.Digit
import TinyMips.Text.Gap
import TinyMips.Text.Tab

/-!
# Operands

The operands of an instruction as they are written: registers by name or number, immediates in
decimal or in base sixteen, commas between them and gaps around them. Registers are kept as
written; whether they exist is not looked at here.
-/

namespace TinyMips

/-- The operands of an instruction of a given shape. -/
inductive Operands : Shape → Type where
  /-- a destination and two source registers -/
  | rrr (rd rs rt : String) : Operands .rrr
  /-- a destination, a source register and an immediate -/
  | rri (rd rs : String) (immediate : Int) : Operands .rri
  /-- two source registers -/
  | rr (rs rt : String) : Operands .rr
  /-- a destination -/
  | r (rd : String) : Operands .r
  deriving DecidableEq, Repr

/-! ## Immediates -/

/-- An immediate as it is written. -/
structure Literal where
  /-- whether a minus sign stands in front -/
  isNegative : Bool
  /-- whether the digits are of base sixteen, after `0x` or `0X` -/
  isHex : Bool
  /-- the values of the digits -/
  digits : List Nat
  deriving DecidableEq, Repr

namespace Literal

/-- The integer that a literal denotes. Only decimal digits are limited in number. -/
def value (l : Literal) : Except Numeral.Error Int := do
  let n ← if l.isHex then .ok (Numeral.ofDigits 16 l.digits) else Numeral.readDecimal l.digits
  return if l.isNegative then -n else n

/-- What follows the mark of base sixteen, if the text starts with one and a digit. -/
def hexBody? : List Char → Option (List Char)
  | '0' :: mark :: digit :: rest =>
    if (mark = 'x' ∨ mark = 'X') ∧ (Text.hexValue? digit).isSome then some (digit :: rest)
    else none
  | _ => none

/-- The value of a decimal digit of ASCII. -/
def digitValue (c : Char) : Nat :=
  c.toNat - '0'.toNat

/-- Reads a literal off the text, with as many digits as follow. -/
def read? (s : List Char) : Option (Literal × List Char) :=
  let (isNegative, body) := Numeral.readSign s
  match hexBody? body with
  | some digits =>
    let isHexDigit c := (Text.hexValue? c).isSome
    let values := (digits.takeWhile isHexDigit).filterMap Text.hexValue?
    some ({ isNegative, isHex := true, digits := values }, digits.dropWhile isHexDigit)
  | none =>
    match body.takeWhile Text.isAsciiDigit with
    | [] => none
    | digits =>
      some ({ isNegative, isHex := false, digits := digits.map digitValue },
        body.dropWhile Text.isAsciiDigit)

end Literal

/-! ## Tokens -/

namespace Operands

/-- Reads a register: a dollar sign, then as many letters and digits as follow, one at least. -/
def readRegister? (s : List Char) : Option (String × List Char) :=
  match Text.skipGap s with
  | '$' :: rest =>
    match rest.takeWhile Text.isAsciiAlphanumeric with
    | [] => none
    | letters => some (String.ofList ('$' :: letters), rest.dropWhile Text.isAsciiAlphanumeric)
  | _ => none

/-- Reads a comma. -/
def readComma? (s : List Char) : Option (List Char) :=
  match Text.skipGap s with
  | ',' :: rest => some rest
  | _ => none

/-- Reads an immediate. -/
def readLiteral? (s : List Char) : Option (Literal × List Char) :=
  Literal.read? (Text.skipGap s)

/-- Reads a register and the comma after it. -/
def readRegisterComma? (s : List Char) : Option (String × List Char) := do
  let (name, s) ← readRegister? s
  return (name, ← readComma? s)

/-- Keeps what has been read if the text ends here. -/
def finish? {α : Type} (a : α) (s : List Char) : Option α :=
  if Text.atEnd s then some a else none

/-! ## Shapes -/

/-- Reads three registers. -/
def readRrr? (s : List Char) : Option (Operands .rrr) := do
  let (rd, s) ← readRegisterComma? s
  let (rs, s) ← readRegisterComma? s
  let (rt, s) ← readRegister? s
  finish? (.rrr rd rs rt) s

/-- Reads two registers and an immediate, up to the end of the immediate. -/
def readRriHead? (s : List Char) : Option (String × String × Literal × List Char) := do
  let (rd, s) ← readRegisterComma? s
  let (rs, s) ← readRegisterComma? s
  let (immediate, s) ← readLiteral? s
  return (rd, rs, immediate, s)

/-- Reads two registers and an immediate. The immediate has to be within the limits whatever
comes after it. -/
def readRri? (s : List Char) : Except Numeral.Error (Option (Operands .rri)) :=
  match readRriHead? s with
  | none => .ok none
  | some (rd, rs, immediate, s) => do
    let n ← immediate.value
    return finish? (.rri rd rs n) s

/-- Reads two registers. -/
def readRr? (s : List Char) : Option (Operands .rr) := do
  let (rs, s) ← readRegisterComma? s
  let (rt, s) ← readRegister? s
  finish? (.rr rs rt) s

/-- Reads one register. -/
def readR? (s : List Char) : Option (Operands .r) := do
  let (rd, s) ← readRegister? s
  finish? (.r rd) s

/-- Reads the operands of a shape from a text without tabs. -/
def read? : (shape : Shape) → List Char → Except Numeral.Error (Option (Operands shape))
  | .rrr, s => .ok (readRrr? s)
  | .rri, s => readRri? s
  | .rr, s => .ok (readRr? s)
  | .r, s => .ok (readR? s)

/-- Reads the operands of an instruction. -/
def parse (shape : Shape) (opcode operands : String) : Except Failure (Operands shape) :=
  match read? shape (Text.expandTabs operands.toList) with
  | .error e => .error (.numeral e)
  | .ok none => .error (.fault (.malformedOperands shape opcode operands))
  | .ok (some ops) => .ok ops

end Operands

end TinyMips
