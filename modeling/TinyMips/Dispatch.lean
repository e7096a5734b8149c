import TinyMips.Run

/-!
# Dispatch

Carrying out one instruction. Its faults are reported and leave the machine as it was; a numeral
beyond the limits ends the run.
-/

namespace TinyMips

/-- How an instruction ended. -/
inductive Outcome where
  /-- it was carried out -/
  | executed
  /-- it was understood but is not carried out -/
  | ignored
  /-- it was at fault -/
  | failed
  deriving DecidableEq, Repr

/-- Why a run does not go on. -/
inductive Halt where
  /-- a numeral is beyond the limits -/
  | numeral (error : Numeral.Error)
  /-- the input was interrupted -/
  | interrupted
  deriving DecidableEq, Repr

/-- The notes that a batch of changes leaves in the log. -/
def Update.notes {size : Nat} {bank : Bank size} (update : Update bank) : List Event :=
  update.changes.map fun change => .note (.wrote change.register change.new)

/-- What can be seen of a batch of changes: a note of each, and a report if all were made. -/
def Update.events {size : Nat} {bank : Bank size} (update : Update bank) : List Event :=
  match update.failure? with
  | none => update.notes ++ [.report (.changes update.changes)]
  | some _ => update.notes

/-- The outcome of an instruction that made a batch of changes. -/
def Update.outcome {size : Nat} {bank : Bank size} (update : Update bank) :
    Except Failure Outcome :=
  match update.failure? with
  | none => .ok .executed
  | some e => .error e

namespace Machine

/-- Makes the changes that an instruction asks for. -/
def commit (m : Machine) (i : Instruction) : Instruction.Effect → Run Failure Outcome
  | .assign target v =>
    let update := m.general.update [(target, v)]
    { machine := { m with general := update.file }
      events := update.events
      result := update.outcome }
  | .divided d =>
    let update := m.accumulators.update
      [(Accumulator.hi.name, d.remainder), (Accumulator.lo.name, d.quotient)]
    { machine := { m with accumulators := update.file }
      events := update.events
      result := update.outcome }
  | .unexecuted rs rt =>
    { machine := m
      events := [.note (.unexecuted i rs rt)]
      result := .ok .ignored }

/-- Looks an instruction up, evaluates it and makes the changes. -/
def perform (m : Machine) (opcode operands : String) : Run Failure Outcome :=
  match Opcode.ofText? opcode with
  | none => { machine := m, events := [], result := .error (.fault (.unknownOpcode opcode)) }
  | some op =>
    let i := op.instruction
    let run : Run Failure Outcome :=
      match i.interpret m opcode operands with
      | .ok effect => m.commit i effect
      | .error e => { machine := m, events := [], result := .error e }
    run.after [.note (.dispatching opcode i)]

/-- Carries out an instruction: announces it, performs it, and reports a fault. -/
def dispatch (m : Machine) (opcode operands : String) : Run Halt Outcome :=
  let run := m.perform opcode operands
  let events := .report (.instruction opcode operands) :: run.events
  match run.result with
  | .ok outcome => { machine := run.machine, events, result := .ok outcome }
  | .error (.fault f) =>
    { machine := run.machine
      events := events ++ [.note (.rejected opcode operands f), .report (.error f.message)]
      result := .ok .failed }
  | .error (.numeral e) => { machine := run.machine, events, result := .error (.numeral e) }

end Machine

end TinyMips
