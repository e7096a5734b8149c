import TinyMips.Proofs.Bounds

/-!
# Checks

What can keep an instruction from being carried out, once its operands have been read, is a list
of checks that are made one after the other: that the sources are registers, that the operation
can be computed on them, and that the destination can be written. `Check.verdict` makes a check,
`Instruction.checks` lists those of an instruction, and the main statement is that these are all
there are (`Opcode.verdicts_checks`): making them gives the failure, if any, that evaluating the
instruction and looking its destination up gives.
-/

namespace TinyMips

/-! ## Computations that can fail -/

section Bind

variable {ε α β : Type}

@[simp] theorem ok_bind (a : α) (f : α → Except ε β) : (Except.ok a >>= f) = f a := rfl

@[simp] theorem error_bind (e : ε) (f : α → Except ε β) :
    (Except.error e >>= f) = Except.error e := rfl

theorem bind_eq_ok {x : Except ε α} {f : α → Except ε β} {b : β} :
    (x >>= f) = .ok b ↔ ∃ a, x = .ok a ∧ f a = .ok b := by
  cases x with
  | error e => simp
  | ok a => simp

theorem bind_eq_error {x : Except ε α} {f : α → Except ε β} {e : ε} :
    (x >>= f) = .error e ↔ x = .error e ∨ ∃ a, x = .ok a ∧ f a = .error e := by
  cases x with
  | error e => simp
  | ok a => simp

end Bind

/-! ## Checks -/

/-- Something that must be so for an instruction to be carried out. -/
inductive Check where
  /-- the name is that of a register, which is read -/
  | source (name : String)
  /-- a word can be shifted by the amount -/
  | amount (n : Int)
  /-- the register with this name does not hold zero -/
  | divisor (name : String)
  /-- the name is that of a register that can be written -/
  | destination (name : String)
  deriving DecidableEq, Repr

/-- Makes a check on a machine. -/
def Check.verdict (m : Machine) : Check → Except Failure Unit
  | .source name => do
    let _ ← Bank.general.source name
  | .amount n => do
    let _ ← shiftAmount n
  | .divisor name => do
    let b ← m.general.get name
    if Mode.signed.wrap b = 0 then .error (.fault .divisionByZero) else .ok ()
  | .destination name => do
    let _ ← Bank.general.target name

theorem Bank.source_of_find {size : Nat} {bank : Bank size} {name : String} {i : Fin size}
    (h : bank.find name = .ok (some i)) : bank.source name = .ok i := by
  rw [source, h]

/-- A register can be divided by exactly if it does not hold a value congruent to zero. -/
theorem Check.verdict_divisor (m : Machine) {name : String} {i : Fin generalSize}
    (h : Bank.general.find name = .ok (some i)) :
    (divisor name).verdict m =
      if m.general.value i % wordSize = 0 then .error (.fault .divisionByZero) else .ok () := by
  have zero_iff : Mode.signed.wrap (m.general.value i) = 0 ↔ m.general.value i % wordSize = 0 :=
    Mode.signed.wrap_eq_wrap_iff (m.general.value i) 0
  simp only [verdict, RegisterFile.get, Bank.source_of_find h, ok_bind, pure_bind, zero_iff]

/-- Makes checks one after the other, up to the first that fails. -/
def Check.verdicts (m : Machine) : List Check → Except Failure Unit
  | [] => .ok ()
  | check :: rest => do
    check.verdict m
    verdicts m rest

namespace Operation

/-- Whether the second operand is the amount of a shift. -/
def isShift : Operation → Bool
  | .shiftLeft | .shiftRight => true
  | _ => false

/-- The checks that an operation makes on an immediate. -/
def checks (op : Operation) (n : Int) : List Check :=
  if op.isShift then [.amount n] else []

/-- Operations other than shifts answer on any operands. -/
theorem exists_apply_eq_ok {op : Operation} (h : op.isShift = false) (mode : Mode) (a b : Int) :
    ∃ v, op.apply mode a b = .ok v := by
  cases op with
  | shiftLeft => cases h
  | shiftRight => cases h
  | _ => exact ⟨_, rfl⟩

/-- A shift answers if its amount is one. -/
theorem apply_shift {op : Operation} (h : op.isShift = true) (mode : Mode) (a b : Int) :
    ∃ f : Nat → Int, op.apply mode a b = (shiftAmount b).map f := by
  cases op with
  | shiftLeft => exact ⟨_, rfl⟩
  | shiftRight => exact ⟨_, rfl⟩
  | _ => cases h

end Operation

namespace Instruction

/-- The checks that an instruction makes, in order. -/
def checks : (i : Instruction) → Operands i.shape → List Check
  | .registers .., .rrr rd rs rt => [.source rs, .source rt, .destination rd]
  | .immediate op _, .rri rd rs n => .source rs :: (op.checks n ++ [.destination rd])
  | .multiply, .rr _ _ => []
  | .divide, .rr rs rt => [.source rs, .source rt, .divisor rt]
  | .moveFrom _, .r rd => [.destination rd]

/-- The check that is left when an instruction has been evaluated. -/
def Effect.verdict : Effect → Except Failure Unit
  | .assign target _ => do
    let _ ← Bank.general.target target
  | .divided _ => .ok ()
  | .unexecuted .. => .ok ()

/-- Making the checks of an instruction is evaluating it and looking its destination up, unless
it shifts by the contents of a register. -/
theorem verdicts_checks (m : Machine) (i : Instruction)
    (hi : ∀ op mode, i = .registers op mode → op.isShift = false) (ops : Operands i.shape) :
    Check.verdicts m (i.checks ops) = i.evaluate m ops >>= Effect.verdict := by
  match i, ops with
  | .registers op mode, .rrr rd rs rt =>
    simp only [checks, evaluate, Check.verdicts, Check.verdict, RegisterFile.get]
    cases Bank.general.source rs with
    | error e => rfl
    | ok i =>
      cases Bank.general.source rt with
      | error e => rfl
      | ok j =>
        obtain ⟨v, hv⟩ := Operation.exists_apply_eq_ok (hi op mode rfl) mode
          (m.general.value i) (m.general.value j)
        simp only [ok_bind, pure_bind, hv, Effect.verdict]
        cases Bank.general.target rd <;> rfl
  | .immediate op mode, .rri rd rs n =>
    simp only [checks, evaluate, Check.verdicts, Check.verdict, RegisterFile.get]
    cases Bank.general.source rs with
    | error e => rfl
    | ok i =>
      -- A shift looks at its amount after the source and before the destination.
      by_cases hop : op.isShift = true
      · obtain ⟨f, hf⟩ := Operation.apply_shift hop mode (m.general.value i) n
        simp only [ok_bind, pure_bind, hf, Operation.checks, hop, ↓reduceIte, List.cons_append,
          List.nil_append, Check.verdicts, Check.verdict]
        cases shiftAmount n with
        | error e => rfl
        | ok k =>
          simp only [ok_bind, pure_bind, Except.map, Effect.verdict]
          cases Bank.general.target rd <;> rfl
      · rw [Bool.not_eq_true] at hop
        obtain ⟨v, hv⟩ := Operation.exists_apply_eq_ok hop mode (m.general.value i) n
        simp only [ok_bind, pure_bind, hv, Operation.checks, hop, Bool.false_eq_true,
          ↓reduceIte, List.nil_append, Check.verdicts, Check.verdict,
          Effect.verdict]
        cases Bank.general.target rd <;> rfl
  | .multiply, .rr _ _ => rfl
  | .divide, .rr rs rt =>
    simp only [checks, evaluate, Check.verdicts, Check.verdict, RegisterFile.get]
    cases Bank.general.source rs with
    | error e => rfl
    | ok i =>
      cases Bank.general.source rt with
      | error e => rfl
      | ok j =>
        simp only [ok_bind, pure_bind, TinyMips.divide]
        by_cases hzero : Mode.signed.wrap (m.general.value j) = 0
        · simp only [hzero, ↓reduceIte, error_bind]
        · simp only [hzero, ↓reduceIte, ok_bind, pure_bind, Effect.verdict]
  | .moveFrom a, .r rd =>
    simp only [checks, evaluate, Check.verdicts, Check.verdict, ok_bind,
      Effect.verdict]
    cases Bank.general.target rd <;> rfl

end Instruction

namespace Opcode

/-- No instruction that has a name shifts by the contents of a register. -/
theorem isShift_eq_false {opcode : Opcode} {op : Operation} {mode : Mode}
    (h : opcode.instruction = .registers op mode) : op.isShift = false := by
  cases opcode <;> cases h <;> rfl

/-- The checks of an instruction are all that keeps it from being carried out. -/
theorem verdicts_checks (m : Machine) (opcode : Opcode) (ops : Operands opcode.instruction.shape) :
    Check.verdicts m (opcode.instruction.checks ops) =
      opcode.instruction.evaluate m ops >>= Instruction.Effect.verdict :=
  Instruction.verdicts_checks m opcode.instruction (fun _ _ h => isShift_eq_false h) ops

/-- Interpreting an instruction and looking its destination up is reading its operands and making
its checks. -/
theorem interpret_verdict (m : Machine) (op : Opcode) (opcode operands : String) :
    (op.instruction.interpret m opcode operands >>= Instruction.Effect.verdict) =
      Operands.parse op.instruction.shape opcode operands >>= fun ops =>
        Check.verdicts m (op.instruction.checks ops) := by
  rw [Instruction.interpret, bind_assoc]
  congr 1
  funext ops
  exact (Opcode.verdicts_checks m op ops).symm

end Opcode

end TinyMips
