import TinyMips.Instruction
import TinyMips.Statement

/-!
# The word machine

The machine that a program is written for: its registers are 32-bit words, its instructions have
register numbers and words where a program has names and numerals, and each is one operation on
words. A statement either means such an instruction or means nothing (`WordInstruction.ofText?`),
and a word machine passes over what means nothing.

How an operand text is read and which register a name stands for is shared with `Machine`; what
an instruction computes is said here anew, on `BitVec 32`. That `Machine` does the same is shown in
`TinyMips.Proofs.Refinement`.
-/

namespace TinyMips

/-! ## The machine -/

/-- The word that an integer stands for. -/
def word (n : Int) : BitVec 32 :=
  BitVec.ofInt 32 n

/-- The operations on two words. -/
inductive WordOperation where
  /-- addition modulo `2 ^ 32` -/
  | add
  /-- subtraction modulo `2 ^ 32` -/
  | sub
  /-- bitwise conjunction -/
  | and
  /-- bitwise disjunction -/
  | or
  /-- one if the first word is less than the second in two's complement, else zero -/
  | lessThan
  deriving DecidableEq, Repr

/-- The result of an operation. -/
def WordOperation.eval : WordOperation → BitVec 32 → BitVec 32 → BitVec 32
  | .add, a, b => a + b
  | .sub, a, b => a - b
  | .and, a, b => a &&& b
  | .or, a, b => a ||| b
  | .lessThan, a, b => if a.slt b then 1 else 0

/-- The shifts of a word, with zeros for the bits that are vacated. -/
inductive WordShift where
  | left
  | right
  deriving DecidableEq, Repr

/-- The word shifted by an amount. -/
def WordShift.eval : WordShift → BitVec 32 → Nat → BitVec 32
  | .left, a, n => a <<< n
  | .right, a, n => a >>> n

/-- Where a second operand comes from. -/
inductive WordSource where
  /-- from a register -/
  | register (i : Fin generalSize)
  /-- from the instruction itself -/
  | immediate (w : BitVec 32)

/-- The instructions of the word machine. -/
inductive WordInstruction where
  /-- the result of an operation goes to `rd` -/
  | compute (op : WordOperation) (rd rs : Fin generalSize) (b : WordSource)
  /-- a shifted register goes to `rd` -/
  | shift (op : WordShift) (rd rs : Fin generalSize) (amount : Nat)
  /-- remainder and quotient of two registers go to the accumulators -/
  | divide (rs rt : Fin generalSize)
  /-- an accumulator goes to `rd` -/
  | moveFrom (a : Accumulator) (rd : Fin generalSize)

/-- The state of the word machine. -/
structure WordMachine where
  /-- the general registers -/
  general : Fin generalSize → BitVec 32
  /-- the remainder of the last division -/
  hi : BitVec 32
  /-- the quotient of the last division -/
  lo : BitVec 32

namespace WordMachine

/-- The machine with another word in a general register. -/
def set (w : WordMachine) (i : Fin generalSize) (v : BitVec 32) : WordMachine :=
  { w with general := fun j => if i = j then v else w.general j }

/-- The word that a second operand stands for. -/
def read (w : WordMachine) : WordSource → BitVec 32
  | .register i => w.general i
  | .immediate v => v

/-- The word in an accumulator. -/
def accumulator (w : WordMachine) : Accumulator → BitVec 32
  | .hi => w.hi
  | .lo => w.lo

/-- Carries out an instruction. Division is that of two's complement and truncates toward zero; a
division by zero changes nothing. -/
def step (w : WordMachine) : WordInstruction → WordMachine
  | .compute op rd rs b => w.set rd (op.eval (w.general rs) (w.read b))
  | .shift op rd rs amount => w.set rd (op.eval (w.general rs) amount)
  | .divide rs rt =>
    if w.general rt = 0 then w
    else { w with
      hi := (w.general rs).srem (w.general rt)
      lo := (w.general rs).sdiv (w.general rt) }
  | .moveFrom a rd => w.set rd (w.accumulator a)

/-- Carries out an instruction if there is one. -/
def obey (w : WordMachine) : Option WordInstruction → WordMachine
  | some i => w.step i
  | none => w

end WordMachine

/-! ## The meaning of statements -/

/-- The register that a name stands for, if it stands for one. -/
def register? (name : String) : Option (Fin generalSize) :=
  match Bank.general.find name with
  | .ok (some i) => some i
  | _ => none

/-- The register that a name stands for as a destination. The first register is none. -/
def destination? (name : String) : Option (Fin generalSize) := do
  let i ← register? name
  if i.val = 0 then none else some i

namespace WordInstruction

/-- An operation on two registers that are given by name. -/
def onRegisters? (op : WordOperation) (rd rs rt : String) : Option WordInstruction := do
  let s ← register? rs
  let t ← register? rt
  let d ← destination? rd
  return .compute op d s (.register t)

/-- An operation on a register that is given by name and a number, which counts modulo `2 ^ 32`. -/
def onImmediate? (op : WordOperation) (rd rs : String) (n : Int) : Option WordInstruction := do
  let s ← register? rs
  let d ← destination? rd
  return .compute op d s (.immediate (word n))

/-- A shift of a register that is given by name, by an amount from 0 to 31. -/
def shift? (op : WordShift) (rd rs : String) (n : Int) : Option WordInstruction := do
  let s ← register? rs
  if 0 ≤ n ∧ n ≤ 31 then
    let d ← destination? rd
    return .shift op d s n.toNat
  else none

/-- A division of two registers that are given by name. -/
def divide? (rs rt : String) : Option WordInstruction := do
  let s ← register? rs
  let t ← register? rt
  return .divide s t

/-- A copy of an accumulator to a register that is given by name. -/
def moveFrom? (a : Accumulator) (rd : String) : Option WordInstruction := do
  let d ← destination? rd
  return .moveFrom a d

end WordInstruction

open WordInstruction in
/-- What an instruction with operands means to the word machine, if it means anything. The product
of two registers means nothing. -/
def Opcode.decode? : (op : Opcode) → Operands op.instruction.shape → Option WordInstruction
  | .add, .rrr rd rs rt => onRegisters? .add rd rs rt
  | .addu, .rrr rd rs rt => onRegisters? .add rd rs rt
  | .addi, .rri rd rs n => onImmediate? .add rd rs n
  | .addiu, .rri rd rs n => onImmediate? .add rd rs n
  | .sub, .rrr rd rs rt => onRegisters? .sub rd rs rt
  | .subu, .rrr rd rs rt => onRegisters? .sub rd rs rt
  | .mult, .rr _ _ => none
  | .div, .rr rs rt => divide? rs rt
  | .mfhi, .r rd => moveFrom? .hi rd
  | .mflo, .r rd => moveFrom? .lo rd
  | .and, .rrr rd rs rt => onRegisters? .and rd rs rt
  | .andi, .rri rd rs n => onImmediate? .and rd rs n
  | .or, .rrr rd rs rt => onRegisters? .or rd rs rt
  | .ori, .rri rd rs n => onImmediate? .or rd rs n
  | .sll, .rri rd rs n => shift? .left rd rs n
  | .srl, .rri rd rs n => shift? .right rd rs n
  | .slt, .rrr rd rs rt => onRegisters? .lessThan rd rs rt
  | .slti, .rri rd rs n => onImmediate? .lessThan rd rs n

/-- What a text of an instruction means to the word machine, if it means anything: it has to be the
name of an instruction with operands of its shape. -/
def WordInstruction.ofText? (opcode operands : String) : Option WordInstruction := do
  let op ← Opcode.ofText? opcode
  let ops ← (Operands.parse op.instruction.shape opcode operands).toOption
  op.decode? ops

namespace WordMachine

/-- Carries out a line of a program. Lines that mean nothing change nothing. -/
def runItem (w : WordMachine) : Item → WordMachine
  | .statement s => w.obey (WordInstruction.ofText? s.opcode s.operands)
  | .malformed _ => w

/-- Carries out the lines of a program in order. -/
def run (w : WordMachine) (items : List Item) : WordMachine :=
  items.foldl runItem w

end WordMachine

end TinyMips
