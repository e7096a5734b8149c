import TinyMips.Arithmetic
import TinyMips.Machine
import TinyMips.Operands

/-!
# Instructions

The instructions, their names and shapes, and what each asks to be written. Evaluating an
instruction reads registers and writes none: it answers with an `Effect`.
-/

namespace TinyMips

/-- What an instruction computes, and from what. -/
inductive Instruction where
  /-- an operation on two registers -/
  | registers (op : Operation) (mode : Mode)
  /-- an operation on a register and an immediate -/
  | immediate (op : Operation) (mode : Mode)
  /-- the product of two registers, which is read but not carried out -/
  | multiply
  /-- the quotient and the remainder of two registers -/
  | divide
  /-- a copy of an accumulator -/
  | moveFrom (accumulator : Accumulator)
  deriving DecidableEq, Repr

/-- The names of the instructions. -/
inductive Opcode where
  | add | addi | addu | addiu | sub | subu | mult | div
  | mfhi | mflo
  | and | andi | or | ori | sll | srl
  | slt | slti
  deriving DecidableEq, Repr

namespace Opcode

/-- All names, in the order in which they are listed. -/
def all : List Opcode := [
  .add, .addi, .addu, .addiu, .sub, .subu, .mult, .div,
  .mfhi, .mflo,
  .and, .andi, .or, .ori, .sll, .srl,
  .slt, .slti]

/-- The name as it is written. -/
def text : Opcode → String
  | .add => "add"
  | .addi => "addi"
  | .addu => "addu"
  | .addiu => "addiu"
  | .sub => "sub"
  | .subu => "subu"
  | .mult => "mult"
  | .div => "div"
  | .mfhi => "mfhi"
  | .mflo => "mflo"
  | .and => "and"
  | .andi => "andi"
  | .or => "or"
  | .ori => "ori"
  | .sll => "sll"
  | .srl => "srl"
  | .slt => "slt"
  | .slti => "slti"

/-- The instruction of a name. -/
def instruction : Opcode → Instruction
  | .add => .registers .add .signed
  | .addi => .immediate .add .signed
  | .addu => .registers .add .unsigned
  | .addiu => .immediate .add .unsigned
  | .sub => .registers .sub .signed
  | .subu => .registers .sub .unsigned
  | .mult => .multiply
  | .div => .divide
  | .mfhi => .moveFrom .hi
  | .mflo => .moveFrom .lo
  | .and => .registers .and .signed
  | .andi => .immediate .and .signed
  | .or => .registers .or .signed
  | .ori => .immediate .or .signed
  | .sll => .immediate .shiftLeft .signed
  | .srl => .immediate .shiftRight .signed
  | .slt => .registers .lessThan .signed
  | .slti => .immediate .lessThan .signed

/-- The name that is written so. -/
def ofText? (s : String) : Option Opcode :=
  all.find? (·.text == s)

theorem ofText?_text (opcode : Opcode) : ofText? opcode.text = some opcode := by
  cases opcode <;> decide

end Opcode

/-- The word for an operation in the log. -/
def Operation.label : Operation → String
  | .add => "add"
  | .sub => "sub"
  | .and => "AND"
  | .or => "OR"
  | .shiftLeft => "shift_left"
  | .shiftRight => "shift_right"
  | .lessThan => "set_on_less_than"

namespace Instruction

/-- The operands that the instruction takes. -/
def shape : Instruction → Shape
  | .registers .. => .rrr
  | .immediate .. => .rri
  | .multiply => .rr
  | .divide => .rr
  | .moveFrom _ => .r

/-- The word for what the instruction does in the log. -/
def label : Instruction → String
  | .registers op _ => op.label
  | .immediate op _ => op.label
  | .multiply => "mult"
  | .divide => "div"
  | .moveFrom .hi => "move_from_hi"
  | .moveFrom .lo => "move_from_lo"

/-- How the instruction reads its words. -/
def mode : Instruction → Mode
  | .registers _ mode => mode
  | .immediate _ mode => mode
  | _ => .signed

/-- What an instruction asks for. -/
inductive Effect where
  /-- a value for the register with this name -/
  | assign (target : String) (value : Int)
  /-- the result of a division for the accumulators -/
  | divided (result : Division)
  /-- nothing; the operands are only read -/
  | unexecuted (rs rt : String)
  deriving DecidableEq, Repr

/-- What an instruction asks for on a machine. The source registers are looked up from left to
right, and the operation is tried before anything is known about the destination. -/
def evaluate (m : Machine) : (i : Instruction) → Operands i.shape → Except Failure Effect
  | .registers op mode, .rrr rd rs rt => do
    let a ← m.general.get rs
    let b ← m.general.get rt
    return .assign rd (← op.apply mode a b)
  | .immediate op mode, .rri rd rs n => do
    let a ← m.general.get rs
    return .assign rd (← op.apply mode a n)
  | .multiply, .rr rs rt => .ok (.unexecuted rs rt)
  | .divide, .rr rs rt => do
    let a ← m.general.get rs
    let b ← m.general.get rt
    return .divided (← TinyMips.divide .signed a b)
  | .moveFrom a, .r rd => .ok (.assign rd (m.accumulator a))

/-- What an instruction asks for, given its operands as text. -/
def interpret (i : Instruction) (m : Machine) (opcode operands : String) :
    Except Failure Effect := do
  i.evaluate m (← Operands.parse i.shape opcode operands)

end Instruction

end TinyMips
