import TinyMips.Proofs.Reachable
import TinyMips.Proofs.WordMachine

/-!
# Refinement

The registers of `Machine` hold integers, some signed and some unsigned, as the last instruction
left them; `Machine.words` takes each modulo `2 ^ 32`. The main statement is that programs do not
see the difference (`Machine.Reachable.words_execute`): the words after a program are those that
the word machine computes from the words before it. It rests on one equation for each operation
(`computes_add` and its like), on one for evaluation (`Opcode.words_evaluate`), and on one for
carrying an instruction out (`Machine.words_dispatch`).
-/

namespace TinyMips

/-! ## Words of integers -/

theorem toInt_word (n : Int) : (word n).toInt = Mode.signed.wrap n :=
  BitVec.toInt_ofInt n

theorem toNat_word (n : Int) : (word n).toNat = bits n :=
  BitVec.toNat_ofInt n

theorem word_natCast (n : Nat) : word n = BitVec.ofNat 32 n :=
  BitVec.ofInt_natCast 32 n

theorem word_add (a b : Int) : word (a + b) = word a + word b :=
  BitVec.ofInt_add a b

theorem word_sub (a b : Int) : word (a - b) = word a - word b := by
  rw [Int.sub_eq_add_neg, word_add, BitVec.sub_eq_add_neg]
  exact congrArg _ BitVec.ofInt_neg

/-- An integer stands for the same word as its representative in a mode. -/
theorem word_wrap (mode : Mode) (n : Int) : word (mode.wrap n) = word n := by
  apply BitVec.eq_of_toInt_eq
  rw [toInt_word, toInt_word, Mode.wrap_eq_wrap_iff]
  exact mode.wrap_emod n

/-- Being congruent to zero is standing for the zero word. -/
theorem word_eq_zero_iff (n : Int) : word n = 0 ↔ Mode.signed.wrap n = 0 := by
  rw [← BitVec.toInt_inj, toInt_word]
  rfl

/-! ## Operations -/

/-- An operation on integers is one on their words. -/
def Computes (op : Operation) (mode : Mode) (f : WordOperation) : Prop :=
  ∀ a b, ∃ v, op.apply mode a b = .ok v ∧ word v = f.eval (word a) (word b)

theorem computes_add (mode : Mode) : Computes .add mode .add := by
  intro a b
  refine ⟨_, rfl, ?_⟩
  rw [word_wrap, word_add, word_wrap, word_wrap]
  rfl

theorem computes_sub (mode : Mode) : Computes .sub mode .sub := by
  intro a b
  refine ⟨_, rfl, ?_⟩
  rw [word_wrap, word_sub, word_wrap, word_wrap]
  rfl

theorem computes_and (mode : Mode) : Computes .and mode .and := by
  intro a b
  refine ⟨_, rfl, ?_⟩
  rw [word_wrap, word_natCast, ← toNat_word, ← toNat_word]
  apply BitVec.eq_of_toNat_eq
  simp [WordOperation.eval]

theorem computes_or (mode : Mode) : Computes .or mode .or := by
  intro a b
  refine ⟨_, rfl, ?_⟩
  rw [word_wrap, word_natCast, ← toNat_word, ← toNat_word]
  apply BitVec.eq_of_toNat_eq
  simp [WordOperation.eval]

theorem computes_lessThan : Computes .lessThan .signed .lessThan := by
  intro a b
  refine ⟨_, rfl, ?_⟩
  simp only [WordOperation.eval, BitVec.slt_iff_toInt_lt, toInt_word]
  split <;> rfl

/-- A shift of an integer is one of its word. -/
def Shifts (op : Operation) (mode : Mode) (f : WordShift) : Prop :=
  ∀ a b, op.apply mode a b = (shiftAmount b).map fun n => mode.wrap
    (f.eval (word a) n).toNat

theorem shifts_left (mode : Mode) : Shifts .shiftLeft mode .left := by
  intro a b
  refine congrArg (Except.map · (shiftAmount b)) (funext fun n => ?_)
  rw [Mode.wrap_eq_wrap_iff, WordShift.eval, BitVec.toNat_shiftLeft, toNat_word,
    Nat.shiftLeft_eq, Int.natCast_emod]
  exact (Int.emod_emod_of_dvd _ (Int.dvd_refl _)).symm

theorem shifts_right (mode : Mode) : Shifts .shiftRight mode .right := by
  intro a b
  refine congrArg (Except.map · (shiftAmount b)) (funext fun n => ?_)
  rw [WordShift.eval, BitVec.toNat_ushiftRight, toNat_word, Nat.shiftRight_eq_div_pow]

/-- Division by an integer that stands for zero. -/
theorem divide_eq_error {a b : Int} (h : word b = 0) :
    divide .signed a b = .error (.fault .divisionByZero) := by
  rw [divide_eq, if_pos ((word_eq_zero_iff b).1 h)]

/-- Division of integers is one of their words; it wraps where that of words does. -/
theorem exists_divide_eq_ok {a b : Int} (h : word b ≠ 0) :
    ∃ d, divide .signed a b = .ok d ∧ word d.remainder = (word a).srem (word b) ∧
      word d.quotient = (word a).sdiv (word b) := by
  have hzero : Mode.signed.wrap b ≠ 0 := mt (word_eq_zero_iff b).2 h
  refine ⟨_, (divide_eq .signed a b).trans (if_neg hzero), ?_, ?_⟩
  · rw [word_wrap, ← toInt_word, ← toInt_word, ← BitVec.toInt_srem]
    exact BitVec.ofInt_toInt
  · -- The quotient of the least word by `-1` is no signed word; both divisions wrap it.
    apply BitVec.eq_of_toInt_eq
    rw [BitVec.toInt_sdiv, word_wrap, toInt_word, toInt_word, toInt_word]
    rfl

/-! ## Evaluation -/

theorem register?_eq_toOption (name : String) :
    register? name = (Bank.general.source name).toOption := by
  unfold register? Bank.source
  cases Bank.general.find name with
  | error e => rfl
  | ok found => cases found <;> rfl

theorem destination?_eq_toOption (name : String) :
    destination? name = (Bank.general.target name).toOption := by
  rw [destination?, register?_eq_toOption, Bank.target]
  cases Bank.general.source name with
  | error e => rfl
  | ok i =>
    change (if i.val = 0 then none else some i) =
      Except.toOption (if decide (i = 0) then _ else _)
    by_cases hi : i = 0
    · subst hi
      rfl
    · have hval : i.val ≠ 0 := fun h => hi (Fin.ext h)
      simp only [hi, hval, ↓reduceIte, decide_false]
      rfl

/-- The words of a machine. -/
def Machine.words (m : Machine) : WordMachine where
  general i := word (m.general.value i)
  hi := word (m.accumulator .hi)
  lo := word (m.accumulator .lo)

namespace WordMachine

/-- The machine with another word in the register that a name stands for as a destination. -/
def put (w : WordMachine) (rd : String) (v : BitVec 32) : WordMachine :=
  match destination? rd with
  | some i => w.set i v
  | none => w

/-- What the word machine makes of an effect. -/
def absorb (w : WordMachine) : Except Failure Instruction.Effect → WordMachine
  | .ok (.assign rd v) => w.put rd (word v)
  | .ok (.divided d) => { w with hi := word d.remainder, lo := word d.quotient }
  | .ok (.unexecuted ..) => w
  | .error _ => w

theorem obey_destination? (w : WordMachine) {rd : String} {v : BitVec 32}
    {next : Fin generalSize → WordInstruction} (h : ∀ i, w.step (next i) = w.set i v) :
    w.obey ((destination? rd).bind fun i => some (next i)) = w.put rd v := by
  rw [put]
  cases destination? rd with
  | none => rfl
  | some i => exact h i

end WordMachine

namespace WordInstruction

variable {op : Operation} {mode : Mode}

theorem obey_onRegisters? {f : WordOperation} (h : Computes op mode f) (m : Machine)
    (rd rs rt : String) :
    m.words.obey (onRegisters? f rd rs rt) =
      m.words.absorb ((Instruction.registers op mode).evaluate m (.rrr rd rs rt)) := by
  simp only [onRegisters?, register?_eq_toOption, Instruction.evaluate, RegisterFile.get]
  cases Bank.general.source rs with
  | error e => rfl
  | ok s =>
    cases Bank.general.source rt with
    | error e => rfl
    | ok t =>
      obtain ⟨v, hv, hword⟩ := h (m.general.value s) (m.general.value t)
      simp only [ok_bind, pure_bind, hv]
      refine m.words.obey_destination? fun i => ?_
      rw [hword]
      rfl

theorem obey_onImmediate? {f : WordOperation} (h : Computes op mode f) (m : Machine)
    (rd rs : String) (n : Int) :
    m.words.obey (onImmediate? f rd rs n) =
      m.words.absorb ((Instruction.immediate op mode).evaluate m (.rri rd rs n)) := by
  simp only [onImmediate?, register?_eq_toOption, Instruction.evaluate, RegisterFile.get]
  cases Bank.general.source rs with
  | error e => rfl
  | ok s =>
    obtain ⟨v, hv, hword⟩ := h (m.general.value s) n
    simp only [ok_bind, pure_bind, hv]
    refine m.words.obey_destination? fun i => ?_
    rw [hword]
    rfl

theorem exists_shiftAmount_eq_error {n : Int} (h : ¬(0 ≤ n ∧ n ≤ 31)) :
    ∃ e, shiftAmount n = .error e := by
  have outside : shiftAmount n = if Numeral.Writable n then _ else _ := if_neg h
  rw [outside]
  split
  case _ => exact ⟨_, rfl⟩
  case _ => exact ⟨_, rfl⟩

theorem obey_shift? {f : WordShift} (h : Shifts op mode f) (m : Machine) (rd rs : String)
    (n : Int) :
    m.words.obey (shift? f rd rs n) =
      m.words.absorb ((Instruction.immediate op mode).evaluate m (.rri rd rs n)) := by
  simp only [shift?, register?_eq_toOption, Instruction.evaluate, RegisterFile.get]
  cases Bank.general.source rs with
  | error e => rfl
  | ok s =>
    simp only [ok_bind, pure_bind, h (m.general.value s) n]
    by_cases hn : 0 ≤ n ∧ n ≤ 31
    · have amount : shiftAmount n = .ok n.toNat := if_pos hn
      simp only [amount, hn, and_self, ↓reduceIte]
      refine m.words.obey_destination? fun i => ?_
      rw [word_wrap, word_natCast, BitVec.ofNat_toNat, BitVec.setWidth_eq]
      rfl
    · obtain ⟨e, he⟩ := exists_shiftAmount_eq_error hn
      simp only [he, hn, ↓reduceIte]
      rfl

theorem obey_divide? (m : Machine) (rs rt : String) :
    m.words.obey (divide? rs rt) =
      m.words.absorb (Instruction.divide.evaluate m (.rr rs rt)) := by
  simp only [divide?, register?_eq_toOption, Instruction.evaluate, RegisterFile.get]
  cases Bank.general.source rs with
  | error e => rfl
  | ok s =>
    cases Bank.general.source rt with
    | error e => rfl
    | ok t =>
      simp only [ok_bind, pure_bind]
      change (if m.words.general t = 0 then _ else _ : WordMachine) = _
      by_cases hzero : m.words.general t = 0
      · rw [if_pos hzero, divide_eq_error hzero]
        rfl
      · obtain ⟨d, hd, hremainder, hquotient⟩ := exists_divide_eq_ok hzero
        rw [if_neg hzero, hd, ok_bind]
        change _ = { m.words with hi := word d.remainder, lo := word d.quotient }
        rw [hremainder, hquotient]
        rfl

theorem obey_moveFrom? (m : Machine) (a : Accumulator) (rd : String) :
    m.words.obey (moveFrom? a rd) =
      m.words.absorb ((Instruction.moveFrom a).evaluate m (.r rd)) := by
  refine m.words.obey_destination? fun i => ?_
  cases a <;> rfl

end WordInstruction

open WordInstruction in
/-- Evaluating an instruction on integers is carrying its meaning out on their words. -/
theorem Opcode.words_evaluate (m : Machine) (op : Opcode)
    (ops : Operands op.instruction.shape) :
    m.words.obey (op.decode? ops) = m.words.absorb (op.instruction.evaluate m ops) := by
  match op, ops with
  | .add, .rrr rd rs rt => exact obey_onRegisters? (computes_add _) m rd rs rt
  | .addu, .rrr rd rs rt => exact obey_onRegisters? (computes_add _) m rd rs rt
  | .addi, .rri rd rs n => exact obey_onImmediate? (computes_add _) m rd rs n
  | .addiu, .rri rd rs n => exact obey_onImmediate? (computes_add _) m rd rs n
  | .sub, .rrr rd rs rt => exact obey_onRegisters? (computes_sub _) m rd rs rt
  | .subu, .rrr rd rs rt => exact obey_onRegisters? (computes_sub _) m rd rs rt
  | .mult, .rr rs rt => rfl
  | .div, .rr rs rt => exact obey_divide? m rs rt
  | .mfhi, .r rd => exact obey_moveFrom? m .hi rd
  | .mflo, .r rd => exact obey_moveFrom? m .lo rd
  | .and, .rrr rd rs rt => exact obey_onRegisters? (computes_and _) m rd rs rt
  | .andi, .rri rd rs n => exact obey_onImmediate? (computes_and _) m rd rs n
  | .or, .rrr rd rs rt => exact obey_onRegisters? (computes_or _) m rd rs rt
  | .ori, .rri rd rs n => exact obey_onImmediate? (computes_or _) m rd rs n
  | .sll, .rri rd rs n => exact obey_shift? (shifts_left _) m rd rs n
  | .srl, .rri rd rs n => exact obey_shift? (shifts_right _) m rd rs n
  | .slt, .rrr rd rs rt => exact obey_onRegisters? computes_lessThan m rd rs rt
  | .slti, .rri rd rs n => exact obey_onImmediate? computes_lessThan m rd rs n

/-! ## Programs -/

namespace Machine

/-- What the word machine makes of an instruction given as text is what it makes of the effect. -/
theorem words_interpret {m : Machine} {opcode operands : String} {op : Opcode}
    (hop : Opcode.ofText? opcode = some op) :
    m.words.obey (WordInstruction.ofText? opcode operands) =
      m.words.absorb (op.instruction.interpret m opcode operands) := by
  have decoded : WordInstruction.ofText? opcode operands =
      (Operands.parse op.instruction.shape opcode operands).toOption.bind op.decode? := by
    rw [WordInstruction.ofText?, hop]
    rfl
  rw [decoded, Instruction.interpret]
  cases Operands.parse op.instruction.shape opcode operands with
  | error e => rfl
  | ok ops => exact op.words_evaluate m ops

theorem words_assign (m : Machine) (i : Fin generalSize) (v : Int) :
    (m.assign i v).words = m.words.set i (word v) := by
  have general : (m.assign i v).words.general = (m.words.set i (word v)).general := by
    funext j
    change word ((m.general.put i v).value j) = if i = j then word v else word (m.general.value j)
    by_cases hij : i = j
    · subst hij
      rw [if_pos rfl, RegisterFile.value_put_self]
    · rw [if_neg hij, RegisterFile.value_put_of_ne _ hij]
  exact congrArg (WordMachine.mk · m.words.hi m.words.lo) general

theorem words_keepDivision (m : Machine) (d : Division) :
    (m.keepDivision d).words =
      { m.words with hi := word d.remainder, lo := word d.quotient } := by
  obtain ⟨hi, lo⟩ := m.accumulator_keepDivision d
  rw [words, hi, lo]
  rfl

/-- Where an instruction is performed, the words are those that the word machine computes; where it
is refused, the word machine has nothing to do. -/
theorem Performs.words {m : Machine} {opcode operands : String} {run : Run Failure Outcome}
    (h : m.Performs opcode operands run) :
    run.machine.words = m.words.obey (WordInstruction.ofText? opcode operands) := by
  cases h with
  | unknown hop =>
    simp only [WordInstruction.ofText?, hop]
    rfl
  | @refused op e hop h =>
    rw [words_interpret hop]
    cases heffect : op.instruction.interpret m opcode operands with
    | error e => rfl
    | ok effect =>
      rw [heffect, ok_bind] at h
      cases effect with
      | assign rd v =>
        -- Only the destination can have been refused, and then the word machine has none either.
        change m.words = m.words.put rd (word v)
        rw [WordMachine.put, destination?_eq_toOption]
        cases hrd : Bank.general.target rd with
        | error e => rfl
        | ok i =>
          rw [Instruction.Effect.verdict, hrd] at h
          cases h
      | divided d => cases h
      | unexecuted rs rt => cases h
  | ignored hop h =>
    rw [words_interpret hop, h]
    rfl
  | @assigned op rd v i hop h hrd hv =>
    rw [words_interpret hop, h]
    change (m.assign i v).words = m.words.put rd (word v)
    rw [words_assign, WordMachine.put, destination?_eq_toOption, hrd]
    rfl
  | divided hop h hr hq =>
    rw [words_interpret hop, h, words_keepDivision]
    rfl

/-- Carrying an instruction out is carrying its meaning out on words. -/
theorem words_dispatch {m : Machine} (hm : m.HoldsWords) (opcode operands : String) :
    (m.dispatch opcode operands).machine.words =
      m.words.obey (WordInstruction.ofText? opcode operands) := by
  rw [machine_dispatch]
  exact (performs hm opcode operands).words

theorem words_runItem {m : Machine} (hm : m.HoldsWords) (item : Item) :
    (m.runItem item).machine.words = m.words.runItem item := by
  cases item with
  | statement s => exact words_dispatch hm s.opcode s.operands
  | malformed line => rfl

/-- Running lines to their end is carrying their meanings out on words. -/
theorem words_runItems {m : Machine} (hm : m.HoldsWords) {items : List Item} {failures : Nat}
    (h : (m.runItems items).result = .ok failures) :
    (m.runItems items).machine.words = m.words.run items := by
  induction items generalizing m failures with
  | nil => rfl
  | cons item rest ih =>
    obtain ⟨count, hcount, hrest⟩ := Run.result_andThen_eq_ok.1 h
    obtain ⟨later, hlater, -⟩ := Run.result_map_eq_ok.1 hrest
    calc (m.runItems (item :: rest)).machine.words
        = ((m.runItem item).machine.runItems rest).machine.words := by
          rw [runItems, Run.andThen_of_ok hcount]
          rfl
      _ = (m.runItem item).machine.words.run rest := ih (hm.runItem item) hlater
      _ = (m.words.runItem item).run rest := by rw [words_runItem hm item]

/-- **Programs refine the word machine.** When a program has been run to its end on a reachable
machine, its words are what the word machine computes from the words before. -/
theorem Reachable.words_execute {m : Machine} (hm : m.Reachable) (source : String)
    {failures : Nat} (h : (m.execute source).result = .ok failures) :
    (m.execute source).machine.words = m.words.run (Item.ofSource source) :=
  words_runItems hm.holdsWords h

/-- Unsigned and signed words in one program: `-1` as an unsigned word is less than zero to `slti`,
a write to `$zero` fails, and the least word divided by `-1` is the least word again. -/
theorem words_execute_least_quotient :
    let source :=
      "addiu $8,$0,-1\nslti $9,$8,0\naddi $00,$8,1\nsll $10,$9,31\ndiv $10,$8\nmflo $s0"
    zero.Reachable ∧ (zero.execute source).result = .ok 1 ∧
      (zero.execute source).machine.words = zero.words.run (Item.ofSource source) ∧
      (zero.execute source).machine.words.general 16 = 0x80000000#32 :=
  ⟨.zero, rfl, Reachable.words_execute .zero _ rfl, rfl⟩

end Machine

end TinyMips
