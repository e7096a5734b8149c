import TinyMips.Proofs.OperandTexts
import TinyMips.Proofs.SessionRun

/-!
# Immediates in place of registers

Most operations on two registers have a second form, in which an immediate stands in place of the
second source. An operation sees its second operand as a word and not as an integer
(`Operation.apply_congr`), so it makes no difference which of the two forms it is given, as long as
the immediate is congruent to what the register holds. The main statement is that the two forms are
told apart by their announcements and by nothing else (`Machine.dispatch_immediateForm`).
-/

namespace TinyMips

/-! ## The forms -/

/-- The instruction that takes an immediate in place of the second source of another, if there is
one. -/
def Opcode.immediateForm? : Opcode → Option Opcode
  | .add => some .addi
  | .addu => some .addiu
  | .and => some .andi
  | .or => some .ori
  | .slt => some .slti
  | _ => none

/-- The two forms are of one operation, which is not a shift, in one mode. -/
theorem Opcode.instruction_of_immediateForm? {op form : Opcode}
    (h : op.immediateForm? = some form) :
    ∃ f mode, Operation.isShift f = false ∧ op.instruction = .registers f mode ∧
      form.instruction = .immediate f mode := by
  cases op <;> cases h <;> exact ⟨_, _, rfl, rfl, rfl⟩

/-- Operations other than shifts depend on the residue of their second operand alone. -/
theorem Operation.apply_congr {f : Operation} (hf : f.isShift = false) (mode : Mode) (a : Int)
    {b c : Int} (h : b % wordSize = c % wordSize) : f.apply mode a b = f.apply mode a c := by
  have word : mode.wrap b = mode.wrap c := (mode.wrap_eq_wrap_iff b c).2 h
  have same_bits : bits b = bits c :=
    congrArg Int.toNat ((Mode.unsigned.wrap_eq_wrap_iff b c).2 h)
  cases f with
  | shiftLeft => cases hf
  | shiftRight => cases hf
  | _ => simp only [apply, word, same_bits]

namespace Instruction

variable {m : Machine}

/-- An instruction is evaluated on the operands that are read. -/
theorem interpret_of_parse {opcode operands : String} {i : Instruction} {ops : Operands i.shape}
    (h : Operands.parse i.shape opcode operands = .ok ops) :
    i.interpret m opcode operands = i.evaluate m ops := by
  rw [interpret, h, ok_bind]

variable {f : Operation} {mode : Mode} {rd rs rt : String} {i : Fin generalSize} {n : Int}

/-- The two forms ask for the same. They look their sources up from left to right, and the second of
them is known. -/
theorem evaluate_immediate (hf : f.isShift = false) (hrt : Bank.general.find rt = .ok (some i))
    (hn : n % wordSize = m.general.value i % wordSize) :
    evaluate m (.immediate f mode) (.rri rd rs n) =
      evaluate m (.registers f mode) (.rrr rd rs rt) := by
  have read : m.general.get rt = .ok (m.general.value i) := by
    rw [RegisterFile.get, Bank.source_of_find hrt]
    rfl
  simp only [evaluate, read, ok_bind, Operation.apply_congr hf mode _ hn]

end Instruction

/-! ## The texts -/

namespace Operands

/-- Three fields without gaps around them. -/
theorem fields_three (a b c : List Char) : Fields [a, b, c] (a ++ ',' :: (b ++ ',' :: c)) := by
  have bare : ∀ field rest : List Char, IsField field rest (field ++ rest) := fun field rest =>
    ⟨[], [], by simp [Text.IsGap], by simp [Text.IsGap], rfl⟩
  have last : IsField c [] c := by simpa using bare c []
  exact .cons (bare _ _) (.cons (bare _ _) (.last last))

/-- Operands that are spelled in three texts are read from the texts with commas between them. -/
theorem parse_three {shape : Shape} {ops : Operands shape} {a b c : String}
    (h : ops.Spells [a.toList, b.toList, c.toList]) (opcode : String) :
    parse shape opcode (a ++ "," ++ b ++ "," ++ c) = .ok ops := by
  have text : (a ++ "," ++ b ++ "," ++ c).toList =
      a.toList ++ ',' :: (b.toList ++ ',' :: c.toList) := by
    simp [String.toList_append]
  have written : ops.Written (a ++ "," ++ b ++ "," ++ c).toList :=
    ⟨_, h, text ▸ fields_three _ _ _⟩
  have noTab := written.notMem (c := '\t') (by decide) (by decide) (by decide)
  refine parse_eq_ok_iff.2 ?_
  rwa [Text.expandTabs, Text.expandTabsFrom_eq_self noTab]

end Operands

/-! ## Instructions that ask for the same -/

namespace Machine

variable {m : Machine}

/-- What is committed does not depend on which instruction asks for it, but for the notes. -/
theorem commit_agrees (m : Machine) (i j : Instruction) (effect : Instruction.Effect) :
    (m.commit i effect).Agrees (m.commit j effect) := by
  cases effect <;> exact ⟨rfl, rfl, rfl⟩

/-- Instructions that ask for the same are performed alike. -/
theorem perform_agrees {a b : Opcode} {s t : String}
    (h : a.instruction.interpret m a.text s = b.instruction.interpret m b.text t) :
    (m.perform a.text s).Agrees (m.perform b.text t) := by
  simp only [perform, Opcode.ofText?_text, h]
  cases b.instruction.interpret m b.text t with
  | error e => exact ⟨rfl, rfl, rfl⟩
  | ok effect =>
    have same := m.commit_agrees a.instruction b.instruction effect
    exact ⟨same.machine, by simpa [Run.after, Event.reports] using same.reports, same.result⟩

/-- What two dispatches have in common if their instructions are performed alike. -/
theorem dispatch_of_agrees {opcode opcode' operands operands' : String}
    (h : (m.perform opcode operands).Agrees (m.perform opcode' operands')) :
    let a := m.dispatch opcode operands
    let b := m.dispatch opcode' operands'
    a.result = b.result ∧ a.machine = b.machine ∧
      ∃ rest, Event.reports a.events = .instruction opcode operands :: rest ∧
        Event.reports b.events = .instruction opcode' operands' :: rest := by
  simp only [result_dispatch, machine_dispatch, reports_dispatch, h.result, h.machine, h.reports]
  exact ⟨trivial, trivial, _, rfl, rfl⟩

/-- **Immediates in place of registers.** Take an operation that has a form with an immediate, any
registers, the second source being known, and any spelling of an integer that is congruent modulo
`2 ^ 32` to what the second source holds. On every machine the two forms of the instruction come to
the same end, which may be that they fail or that they end the run. They leave the same registers,
and after their announcements they report the same: the same changes from the same old integers to
the same new ones, or the same error. -/
theorem dispatch_immediateForm (m : Machine) {op form : Opcode}
    (hform : op.immediateForm? = some form) {rd rs rt literal : String} (hrd : IsToken rd)
    (hrs : IsToken rs) (hrt : IsToken rt) {i : Fin generalSize}
    (hi : Bank.general.find rt = .ok (some i)) {n : Int}
    (hspells : Numeral.Spells n literal.toList)
    (hn : n % wordSize = m.general.value i % wordSize) :
    let ofRegister := m.dispatch op.text (rd ++ "," ++ rs ++ "," ++ rt)
    let ofImmediate := m.dispatch form.text (rd ++ "," ++ rs ++ "," ++ literal)
    ofRegister.result = ofImmediate.result ∧ ofRegister.machine = ofImmediate.machine ∧
      ∃ rest, Event.reports ofRegister.events =
          .instruction op.text (rd ++ "," ++ rs ++ "," ++ rt) :: rest ∧
        Event.reports ofImmediate.events =
          .instruction form.text (rd ++ "," ++ rs ++ "," ++ literal) :: rest := by
  refine dispatch_of_agrees (perform_agrees ?_)
  obtain ⟨f, mode, hf, hop, hinstruction⟩ := Opcode.instruction_of_immediateForm? hform
  have register : (Instruction.registers f mode).interpret m op.text _ = _ :=
    Instruction.interpret_of_parse (Operands.parse_three (.rrr hrd hrs hrt) op.text)
  have immediate : (Instruction.immediate f mode).interpret m form.text _ = _ :=
    Instruction.interpret_of_parse
      (Operands.parse_three (.rri hrd hrs (Numeral.spells_iff.1 hspells)) form.text)
  rw [hop, hinstruction, register, immediate]
  exact (Instruction.evaluate_immediate hf hi hn).symm

/-- A sum of two spellings of a register that holds the greatest unsigned word, and of the register
and `-1`: the destination is the register itself. -/
theorem dispatch_immediateForm_aliases :
    let m := (zero.dispatch "addiu" "$8,$0,-1").machine
    Opcode.add.immediateForm? = some .addi ∧ IsToken "$t0" ∧ IsToken "$8" ∧ IsToken "$08" ∧
      Bank.general.find "$08" = .ok (some 8) ∧ Numeral.Spells (-1) "-0x01".toList ∧
      m.general.value 8 = 0xffffffff ∧ (-1) % wordSize = m.general.value 8 % wordSize ∧
      (m.dispatch "add" "$t0,$8,$08").result = (m.dispatch "addi" "$t0,$8,-0x01").result ∧
      (m.dispatch "add" "$t0,$8,$08").machine = (m.dispatch "addi" "$t0,$8,-0x01").machine ∧
      ∃ rest, Event.reports (m.dispatch "add" "$t0,$8,$08").events =
          .instruction "add" "$t0,$8,$08" :: rest ∧
        Event.reports (m.dispatch "addi" "$t0,$8,-0x01").events =
          .instruction "addi" "$t0,$8,-0x01" :: rest := by
  intro m
  have form : Opcode.add.immediateForm? = some .addi := rfl
  have t0 : IsToken "$t0" := ⟨['t', '0'], rfl, by decide, List.all_eq_true.1 rfl⟩
  have r8 : IsToken "$8" := ⟨['8'], rfl, by decide, List.all_eq_true.1 rfl⟩
  have r08 : IsToken "$08" := ⟨['0', '8'], rfl, by decide, List.all_eq_true.1 rfl⟩
  have found : Bank.general.find "$08" = .ok (some 8) := rfl
  have spelled : Numeral.Spells (-1) "-0x01".toList :=
    @Numeral.Spells.hex true ['-'] ['0', '1'] 'x' .minus (.inl rfl) (by decide)
      (List.forall_mem_cons.2 ⟨by decide, List.forall_mem_singleton.2 (by decide)⟩)
  have held : m.general.value 8 = 0xffffffff := rfl
  have congruent : (-1) % wordSize = m.general.value 8 % wordSize := by rw [held]; rfl
  have alike := dispatch_immediateForm m form t0 r8 r08 found spelled congruent
  exact ⟨form, t0, r8, r08, found, spelled, held, congruent, alike⟩

end Machine

end TinyMips
