import TinyMips.Numeral
import TinyMips.Shape

/-!
# Faults

An instruction can fail in two ways. A `Fault` is the program's own mistake: it is reported, and
the run goes on with the next line. A numeral beyond the digit limit is not a mistake of that
kind and ends the run. `Failure` is either of the two.
-/

namespace TinyMips

/-- A mistake in an instruction, or in a request to change registers. -/
inductive Fault where
  /-- the register cannot be written -/
  | protectedRegister (name : String)
  /-- no register has this name -/
  | unknownRegister (name : String)
  /-- no instruction has this name -/
  | unknownOpcode (opcode : String)
  /-- the operands are not of the instruction's shape -/
  | malformedOperands (shape : Shape) (opcode operands : String)
  /-- the word would be shifted by an impossible amount -/
  | shiftOutOfRange (amount : Int)
  /-- the divisor is zero -/
  | divisionByZero
  deriving DecidableEq, Repr

/-- The words for a fault. -/
def Fault.message : Fault → String
  | .protectedRegister name => name ++ " cannot be written to"
  | .unknownRegister name => "Unknown register " ++ Text.quoted name
  | .unknownOpcode opcode => "Unknown opcode " ++ Text.quoted opcode
  | .malformedOperands shape opcode operands =>
    "Malformed operands " ++ Text.quoted operands ++ " for " ++ opcode ++
      ", expected " ++ shape.hint
  | .shiftOutOfRange amount => "Shift amount " ++ toString amount ++ " out of range 0..31"
  | .divisionByZero => "Division by zero"

/-- Why something was not carried out. -/
inductive Failure where
  /-- a mistake that is reported -/
  | fault (fault : Fault)
  /-- a numeral beyond the limits -/
  | numeral (error : Numeral.Error)
  deriving DecidableEq, Repr

/-- The words for a failure. -/
def Failure.message : Failure → String
  | .fault f => f.message
  | .numeral e => e.message

end TinyMips
