import TinyMips.Proofs.Stages
import TinyMips.Proofs.Tokens

/-!
# Registers that a program does not name

A general register that no operand of a program stands for, by its name or by a number, neither
matters to the program nor is changed by it. Said in one equation: writing the register before an
instruction that does not name it or after it comes to the same
(`Machine.HoldsWords.perform_assign`), and so it is for programs
(`Machine.HoldsWords.runItems_assign`). The main statement is that two machines which differ in the
register at most are told apart by nothing that the program lets be seen, and that each keeps its
value of the register (`Machine.Reachable.execute_of_agreesExcept`).
-/

namespace TinyMips

/-! ## Register files -/

namespace RegisterFile

variable {size : Nat} {bank : Bank size}

theorem ext_value {a b : RegisterFile bank} (h : ∀ i, a.value i = b.value i) : a = b := by
  obtain ⟨a⟩ := a
  obtain ⟨b⟩ := b
  exact congrArg mk (Vector.ext fun i hi => h ⟨i, hi⟩)

/-- Writes to two registers can be made in either order. -/
theorem put_comm (file : RegisterFile bank) {i j : Fin size} (h : i ≠ j) (v w : Int) :
    (file.put i v).put j w = (file.put j w).put i v := by
  refine ext_value fun k => ?_
  by_cases hi : i = k
  · subst hi
    rw [value_put_of_ne _ h.symm, value_put_self, value_put_self]
  · rw [value_put_of_ne (file.put j w) hi]
    by_cases hj : j = k
    · subst hj
      rw [value_put_self, value_put_self]
    · rw [value_put_of_ne _ hj, value_put_of_ne _ hi, value_put_of_ne _ hj]

/-- A register that is not meant is not read. -/
theorem get_put {name : String} {i : Fin size} (h : bank.find name ≠ .ok (some i))
    (file : RegisterFile bank) (v : Int) : (file.put i v).get name = file.get name := by
  unfold get Bank.source
  cases hfind : bank.find name with
  | error e => rfl
  | ok i? =>
    cases i? with
    | none => rfl
    | some j =>
      have other : i ≠ j := by
        rintro rfl
        exact h hfind
      exact congrArg Except.ok (value_put_of_ne file other v)

end RegisterFile

/-! ## Names in instructions -/

/-- The spellings of a general register are those that mean it. -/
theorem canonical_eq_name_iff {name : String} {i : Fin generalSize} :
    Bank.general.canonical name = .ok (Bank.general.name i) ↔
      Bank.general.find name = .ok (some i) := by
  rw [Bank.canonical]
  cases hfind : Bank.general.find name with
  | error e => simp
  | ok i? =>
    cases i? with
    | none =>
      -- A name that means no register is not the name of one.
      refine iff_of_false (fun h => ?_) (by simp)
      obtain rfl : name = Bank.general.name i := Except.ok.inj h
      rw [Bank.find_name] at hfind
      cases hfind
    | some j =>
      constructor
      · intro h
        obtain rfl := Bank.general.name_injective _ _ (Except.ok.inj h)
        rfl
      · intro h
        cases h
        rfl

/-- Whether an instruction text names a general register: one of its operands is a spelling of
it. -/
def NamesRegister (r : Fin generalSize) (opcode operands : String) : Prop :=
  ∃ op ops, Opcode.ofText? opcode = some op ∧
    Operands.parse op.instruction.shape opcode operands = .ok ops ∧
    ∃ name ∈ ops.registers, Bank.general.canonical name = .ok (Bank.general.name r)

instance (r : Fin generalSize) (opcode operands : String) :
    Decidable (NamesRegister r opcode operands) :=
  match hop : Opcode.ofText? opcode with
  | none => .isFalse fun ⟨op, _, h, _⟩ => by
    rw [hop] at h
    cases h
  | some op =>
    match hops : Operands.parse op.instruction.shape opcode operands with
    | .error _ => .isFalse fun ⟨op', ops, h, hparse, _⟩ => by
      obtain rfl := Option.some.inj (hop.symm.trans h)
      rw [hops] at hparse
      cases hparse
    | .ok ops =>
      decidable_of_iff
        (∃ name ∈ ops.registers, Bank.general.canonical name = .ok (Bank.general.name r)) <| by
          constructor
          · exact fun h => ⟨op, ops, hop, hops, h⟩
          · rintro ⟨op', ops', h, hparse, hname⟩
            obtain rfl := Option.some.inj (hop.symm.trans h)
            obtain rfl := Except.ok.inj (hops.symm.trans hparse)
            exact hname

/-- Whether a line of a program names a general register. -/
def Item.NamesRegister (r : Fin generalSize) : Item → Prop
  | .statement s => TinyMips.NamesRegister r s.opcode s.operands
  | .malformed _ => False

instance (r : Fin generalSize) : DecidablePred (Item.NamesRegister r)
  | .statement s => inferInstanceAs (Decidable (TinyMips.NamesRegister r s.opcode s.operands))
  | .malformed _ => inferInstanceAs (Decidable False)

theorem Operands.mem_registers_of_destination? {shape : Shape} {ops : Operands shape} {rd : String}
    (h : ops.destination? = some rd) : rd ∈ ops.registers := by
  cases ops with
  | rr rs rt => cases h
  | rrr rd' rs rt =>
    cases h
    exact List.mem_cons_self
  | rri rd' rs n =>
    cases h
    exact List.mem_cons_self
  | r rd' =>
    cases h
    exact List.mem_cons_self

/-- What an instruction asks for does not depend on the registers that it does not name. -/
theorem Instruction.evaluate_assign {i : Instruction} {ops : Operands i.shape}
    {r : Fin generalSize} (h : ∀ name ∈ ops.registers, Bank.general.find name ≠ .ok (some r))
    (m : Machine) (v : Int) : i.evaluate (m.assign r v) ops = i.evaluate m ops := by
  have reads : ∀ name ∈ ops.registers, (m.assign r v).general.get name = m.general.get name :=
    fun name hname => RegisterFile.get_put (h name hname) m.general v
  match i, ops with
  | .registers op mode, .rrr rd rs rt =>
    simp only [evaluate, reads rs (by simp [Operands.registers]),
      reads rt (by simp [Operands.registers])]
  | .immediate op mode, .rri rd rs n =>
    simp only [evaluate, reads rs (by simp [Operands.registers])]
  | .multiply, .rr rs rt => rfl
  | .divide, .rr rs rt =>
    simp only [evaluate, reads rs (by simp [Operands.registers]),
      reads rt (by simp [Operands.registers])]
  | .moveFrom a, .r rd => rfl

/-! ## Runs that leave a register alone -/

/-- The run with another value in a general register at its end. -/
def Run.assign {ε α : Type} (run : Run ε α) (r : Fin generalSize) (v : Int) : Run ε α :=
  { run with machine := run.machine.assign r v }

/-- Runs in a row leave a register alone if each does. -/
theorem Run.andThen_assign {ε α β : Type} {run : Run ε α} {next : Machine → α → Run ε β}
    {r : Fin generalSize} {v : Int}
    (h : ∀ a, next (run.machine.assign r v) a = (next run.machine a).assign r v) :
    (run.assign r v).andThen next = (run.andThen next).assign r v := by
  obtain ⟨machine, events, result⟩ := run
  cases result with
  | error e => rfl
  | ok a =>
    simp only [Run.assign, Run.andThen, h]
    rfl

namespace Machine

variable {m : Machine} {r : Fin generalSize}

theorem assign_comm (m : Machine) {i j : Fin generalSize} (h : i ≠ j) (v w : Int) :
    (m.assign i v).assign j w = (m.assign j w).assign i v := by
  simp only [assign, m.general.put_comm h]

theorem AgreesExcept.eq_assign {m' : Machine} (h : AgreesExcept r m m') :
    m' = m.assign r (m'.general.value r) := by
  obtain ⟨general, accumulators⟩ := h
  have same : m'.general = m.general.put r (m'.general.value r) := by
    refine RegisterFile.ext_value fun j => ?_
    by_cases hj : r = j
    · subst hj
      rw [RegisterFile.value_put_self]
    · rw [RegisterFile.value_put_of_ne _ hj, general j (Ne.symm hj)]
  obtain ⟨mGeneral, mAccumulators⟩ := m'
  simp only [assign] at *
  rw [← same, accumulators]

/-- Making the changes of an instruction leaves a register alone that it does not name. -/
theorem commit_assign_of_ne {i : Instruction} {effect : Instruction.Effect}
    (hword : ∀ target w, effect = .assign target w →
      IsWord w ∧ Bank.general.find target ≠ .ok (some r)) (v : Int) :
    (m.assign r v).commit i effect = (m.commit i effect).assign r v := by
  cases effect with
  | divided d => rfl
  | unexecuted rs rt => rfl
  | assign target w =>
    obtain ⟨hw, hne⟩ := hword target w rfl
    cases htarget : Bank.general.target target with
    | error e =>
      rw [commit_assign_of_error _ i w htarget, commit_assign_of_error _ i w htarget]
      rfl
    | ok j =>
      have other : r ≠ j := by
        rintro rfl
        exact hne (find_of_target htarget)
      -- The report shows what the destination held before, which is not the register.
      have old : (m.assign r v).assignmentChange j w = m.assignmentChange j w := by
        have kept : (m.assign r v).general.value j = m.general.value j :=
          RegisterFile.value_put_of_ne _ other v
        simp only [assignmentChange, kept]
      rw [commit_assign _ i htarget hw.writable, commit_assign _ i htarget hw.writable, old,
        assign_comm m other]
      rfl

/-- An instruction leaves a register alone that it does not name. -/
theorem HoldsWords.perform_assign (hm : m.HoldsWords) {opcode operands : String}
    (h : ¬NamesRegister r opcode operands) (v : Int) :
    (m.assign r v).perform opcode operands = (m.perform opcode operands).assign r v := by
  cases hop : Opcode.ofText? opcode with
  | none =>
    simp only [perform, hop]
    rfl
  | some op =>
    cases hops : Operands.parse op.instruction.shape opcode operands with
    | error e =>
      simp only [perform, hop, Instruction.interpret, hops, error_bind]
      rfl
    | ok ops =>
      have unnamed : ∀ name ∈ ops.registers, Bank.general.find name ≠ .ok (some r) :=
        fun name hname hfind =>
          h ⟨op, ops, hop, hops, name, hname, canonical_eq_name_iff.2 hfind⟩
      simp only [perform, hop, Instruction.interpret, hops, ok_bind,
        Instruction.evaluate_assign unnamed]
      cases heval : op.instruction.evaluate m ops with
      | error e => rfl
      | ok effect =>
        have committed : (m.assign r v).commit op.instruction effect =
            (m.commit op.instruction effect).assign r v := by
          refine commit_assign_of_ne (fun target w heffect => ?_) v
          subst heffect
          cases Instruction.asks_of_evaluate hm heval with
          | assign _ hdestination hw =>
            exact ⟨hw, unnamed target (Operands.mem_registers_of_destination? hdestination)⟩
        simp only [committed]
        rfl

theorem HoldsWords.dispatch_assign (hm : m.HoldsWords) {opcode operands : String}
    (h : ¬NamesRegister r opcode operands) (v : Int) :
    (m.assign r v).dispatch opcode operands = (m.dispatch opcode operands).assign r v := by
  simp only [Machine.dispatch, hm.perform_assign h v, Run.assign]
  split <;> rfl

theorem HoldsWords.runItem_assign (hm : m.HoldsWords) {item : Item} (h : ¬item.NamesRegister r)
    (v : Int) : (m.assign r v).runItem item = (m.runItem item).assign r v := by
  cases item with
  | malformed line => rfl
  | statement s =>
    rw [Machine.runItem, runStatement, hm.dispatch_assign h v]
    rfl

/-- A program leaves a register alone that it does not name. -/
theorem HoldsWords.runItems_assign (hm : m.HoldsWords) {items : List Item}
    (h : ∀ item ∈ items, ¬item.NamesRegister r) (v : Int) :
    (m.assign r v).runItems items = (m.runItems items).assign r v := by
  induction items generalizing m with
  | nil => rfl
  | cons item rest ih =>
    obtain ⟨hitem, hrest⟩ := List.forall_mem_cons.1 h
    rw [runItems, runItems, hm.runItem_assign hitem v]
    refine Run.andThen_assign fun failures => ?_
    rw [ih (hm.runItem item) hrest]
    rfl

/-- The stages of a program do not depend on a register that it does not name. -/
theorem HoldsWords.stages_assign (hm : m.HoldsWords) {items : List Item}
    (h : ∀ item ∈ items, ¬item.NamesRegister r) (v : Int) :
    (m.assign r v).stages items = m.stages items := by
  induction items generalizing m with
  | nil => rfl
  | cons item rest ih =>
    obtain ⟨hitem, hrest⟩ := List.forall_mem_cons.1 h
    have run := hm.runItem_assign hitem v
    have fate : (m.assign r v).fate item = m.fate item := by
      cases item with
      | malformed line => rfl
      | statement s =>
        rw [Machine.fate, hm.dispatch_assign hitem v]
        rfl
    have stage : (m.assign r v).stage item = m.stage item := by
      rw [Machine.stage, Machine.stage, fate, run]
      rfl
    have later : ((m.assign r v).runItem item).machine = (m.runItem item).machine.assign r v := by
      rw [run]
      rfl
    rw [stages, stages, fate, stage, later, ih (hm.runItem item) hrest]

/-- **A register that a program does not name neither matters nor moves.** Take two reachable
machines that differ in one general register at most, and a program that names the register in none
of its operands. Run on both machines, the program lets the same be seen, gives each line the same
fate, and ends alike. The machines that are left differ in the register at most, and in each it
holds what it held before. -/
theorem Reachable.execute_of_agreesExcept {m m' : Machine} (hm : m.Reachable)
    {r : Fin generalSize} (hr : AgreesExcept r m m') {source : String}
    (hsource : ∀ item ∈ Item.ofSource source, ¬item.NamesRegister r) :
    let run := m.execute source
    let run' := m'.execute source
    run'.events = run.events ∧
      (∀ layout, Event.output layout run'.events = Event.output layout run.events) ∧
      m'.stages (Item.ofSource source) = m.stages (Item.ofSource source) ∧
      run'.result = run.result ∧
      AgreesExcept r run.machine run'.machine ∧
      run.machine.general.value r = m.general.value r ∧
      run'.machine.general.value r = m'.general.value r := by
  intro run run'
  have words := hm.holdsWords
  have hrun' : run' = run.assign r (m'.general.value r) := by
    have moved := words.runItems_assign hsource (m'.general.value r)
    rw [← hr.eq_assign] at moved
    exact moved
  have hrun : run = run.assign r (m.general.value r) := by
    have same : AgreesExcept r m m := ⟨fun _ _ => rfl, rfl⟩
    have moved := words.runItems_assign hsource (m.general.value r)
    rw [← same.eq_assign] at moved
    exact moved
  have stages := words.stages_assign hsource (m'.general.value r)
  rw [← hr.eq_assign] at stages
  have kept : ∀ v, (run.assign r v).machine.general.value r = v := fun v =>
    RegisterFile.value_put_self _ r v
  refine ⟨?_, fun layout => ?_, stages, ?_, ?_, ?_, ?_⟩
  · rw [hrun']
    rfl
  · rw [hrun']
    rfl
  · rw [hrun']
    rfl
  · rw [hrun']
    exact agreesExcept_assign _ r _
  · rw [hrun, kept]
  · rw [hrun', kept]

/-- Two machines that differ in `$t1`, and a program that copies, divides by zero, is refused a
write, and has a line that cannot be read. -/
theorem execute_of_agreesExcept_fault :
    let m' := (zero.execute "addiu $9,$0,-5").machine
    let source := "ori $8,$0,9\nadd $t2,$t0,$008\ndiv $8,$zero\nmfhi $0\n9 $t1\nfoo $t1"
    zero.Reachable ∧ AgreesExcept 9 zero m' ∧
      (∀ item ∈ Item.ofSource source, ¬item.NamesRegister 9) ∧
      (zero.execute source).result = .ok 4 ∧
      (m'.execute source).events = (zero.execute source).events ∧
      (m'.execute source).machine.general.value 9 = 4294967291 := by
  intro m' source
  have agrees : AgreesExcept 9 zero m' := zero.agreesExcept_assign 9 4294967291
  have unnamed : ∀ item ∈ Item.ofSource source, ¬item.NamesRegister 9 := by decide +kernel
  obtain ⟨events, -, -, -, -, -, kept⟩ :=
    Reachable.execute_of_agreesExcept .zero agrees unnamed
  exact ⟨.zero, agrees, unnamed, by decide +kernel, events, kept.trans (by decide +kernel)⟩

end Machine

end TinyMips
