import TinyMips.Proofs.Check

/-!
# What an instruction does

Everything that performing an instruction can come to, said once: `Machine.Performs` has a case for
each way it can end, and `Machine.performs` says that there are no others on a machine that holds
words. What holds of every instruction is then shown by going through the five cases, without
opening the functions that carry it out. `Machine.dispatch` adds the announcement in front and the
report of a fault behind (`Machine.reports_dispatch`).
-/

namespace TinyMips

/-! ## Batches -/

namespace RegisterFile

variable {size : Nat} {bank : Bank size}

theorem targets_cons (name : String) (v : Int) (rest : List (String × Int)) :
    targets bank ((name, v) :: rest) = do
      let i ← bank.target name
      let writes ← targets bank rest
      return (i, v) :: writes := by
  rw [targets, List.mapM_cons, bind_assoc]
  simp only [pure_bind]
  rfl

/-- Each register to be written is that of a name, and is given the value of that name. -/
theorem exists_of_mem_targets {batch : List (String × Int)} {writes : List (Fin size × Int)}
    (h : targets bank batch = .ok writes) {w : Fin size × Int} (hw : w ∈ writes) :
    ∃ change ∈ batch, bank.target change.1 = .ok w.1 ∧ change.2 = w.2 := by
  induction batch generalizing writes with
  | nil =>
    cases h
    cases hw
  | cons change rest ih =>
    obtain ⟨name, v⟩ := change
    rw [targets_cons] at h
    obtain ⟨i, hi, h⟩ := bind_eq_ok.1 h
    obtain ⟨later, hlater, h⟩ := bind_eq_ok.1 h
    cases h
    rcases List.mem_cons.1 hw with rfl | hw
    · exact ⟨(name, v), List.mem_cons_self, hi, rfl⟩
    · obtain ⟨change, hchange, htarget⟩ := ih hlater hw
      exact ⟨change, List.mem_cons_of_mem _ hchange, htarget⟩

/-- A register that can be looked up for writing is not protected. -/
theorem isProtected_of_target {name : String} {i : Fin size} (h : bank.target name = .ok i) :
    bank.isProtected i = false := by
  obtain ⟨j, -, h⟩ := bind_eq_ok.1 h
  split at h
  case _ => cases h
  case _ hj =>
    cases h
    exact Bool.not_eq_true _ ▸ hj

/-- What is to be written is not protected. -/
theorem isProtected_of_mem_targets {batch : List (String × Int)} {writes : List (Fin size × Int)}
    (h : targets bank batch = .ok writes) : ∀ w ∈ writes, bank.isProtected w.1 = false := by
  intro w hw
  obtain ⟨change, -, htarget, -⟩ := exists_of_mem_targets h hw
  exact isProtected_of_target htarget

/-- A batch with a name in it that cannot be written changes nothing. -/
theorem update_of_target_error (file : RegisterFile bank) {name : String} {v : Int} {e : Failure}
    (h : bank.target name = .error e) :
    file.update [(name, v)] = { file, changes := [], failure? := some e } := by
  have hw : targets bank [(name, v)] = .error e := by
    rw [targets_cons, h, error_bind]
  rw [update, hw]

/-- A batch of one change to a register that can be written. -/
theorem update_singleton (file : RegisterFile bank) {name : String} {v : Int} {i : Fin size}
    (h : bank.target name = .ok i) (hv : Numeral.Writable v) :
    file.update [(name, v)] =
      { file := file.put i v
        changes := [{ register := bank.name i, old := file.value i, new := v }]
        failure? := none } := by
  have hw : targets bank [(name, v)] = .ok [(i, v)] := by
    rw [targets_cons, h, ok_bind]
    rfl
  simp only [update, hw, file.write_cons (isProtected_of_target h), if_pos hv]
  rfl

end RegisterFile

theorem Accumulator.target_name (a : Accumulator) :
    Bank.accumulators.target a.name = .ok a.index := by
  exact Bank.accumulators.target_name rfl

namespace Machine

/-- The machine with another value in a general register. -/
def assign (m : Machine) (i : Fin generalSize) (v : Int) : Machine :=
  { m with general := m.general.put i v }

/-- The change that is made when a general register is written. -/
def assignmentChange (m : Machine) (i : Fin generalSize) (v : Int) : Change :=
  { register := Bank.general.name i, old := m.general.value i, new := v }

/-- The machine with the result of a division in its accumulators. -/
def keepDivision (m : Machine) (d : Division) : Machine :=
  { m with
    accumulators := (m.accumulators.put Accumulator.hi.index d.remainder).put
      Accumulator.lo.index d.quotient }

theorem accumulator_keepDivision (m : Machine) (d : Division) :
    (m.keepDivision d).accumulator .hi = d.remainder ∧
      (m.keepDivision d).accumulator .lo = d.quotient := by
  constructor
  · change ((m.accumulators.put _ _).put _ _).value Accumulator.hi.index = _
    rw [RegisterFile.value_put_of_ne _ (by decide), RegisterFile.value_put_self]
  · exact RegisterFile.value_put_self _ _ _

/-- The changes that are made when the result of a division is kept. -/
def divisionChanges (m : Machine) (d : Division) : List Change :=
  [{ register := Accumulator.hi.name, old := m.accumulator .hi, new := d.remainder },
    { register := Accumulator.lo.name, old := m.accumulator .lo, new := d.quotient }]

/-- An assignment whose destination cannot be written leaves no trace. -/
theorem commit_assign_of_error (m : Machine) (i : Instruction) {rd : String} (v : Int)
    {e : Failure} (h : Bank.general.target rd = .error e) :
    m.commit i (.assign rd v) = { machine := m, events := [], result := .error e } := by
  simp only [commit, m.general.update_of_target_error h]
  rfl

/-- An assignment whose destination can be written is made, logged and reported. -/
theorem commit_assign (m : Machine) (i : Instruction) {rd : String} {v : Int}
    {j : Fin generalSize} (h : Bank.general.target rd = .ok j) (hv : Numeral.Writable v) :
    m.commit i (.assign rd v) =
      { machine := m.assign j v
        events := [.note (.wrote (Bank.general.name j) v),
          .report (.changes [m.assignmentChange j v])]
        result := .ok .executed } := by
  simp only [commit, m.general.update_singleton h hv]
  rfl

/-- The result of a division is kept as a whole: both accumulators are written, logged and
reported. -/
theorem commit_divided (m : Machine) (i : Instruction) {d : Division}
    (hr : Numeral.Writable d.remainder) (hq : Numeral.Writable d.quotient) :
    m.commit i (.divided d) =
      { machine := m.keepDivision d
        events := [.note (.wrote Accumulator.hi.name d.remainder),
          .note (.wrote Accumulator.lo.name d.quotient),
          .report (.changes (m.divisionChanges d))]
        result := .ok .executed } := by
  have hw : RegisterFile.targets Bank.accumulators
      [(Accumulator.hi.name, d.remainder), (Accumulator.lo.name, d.quotient)] =
      .ok [(Accumulator.hi.index, d.remainder), (Accumulator.lo.index, d.quotient)] := by
    simp only [RegisterFile.targets_cons, Accumulator.target_name, ok_bind]
    rfl
  -- `lo` is written second, and the report still shows what it held before.
  have hlo : (m.accumulators.put Accumulator.hi.index d.remainder).value Accumulator.lo.index =
      m.accumulator .lo :=
    RegisterFile.value_put_of_ne _ (by decide) _
  have unprotected (a : Accumulator) : Bank.accumulators.isProtected a.index = false := rfl
  simp only [commit, RegisterFile.update, hw, RegisterFile.write_cons _ (unprotected _), hr, hq,
    ↓reduceIte, hlo]
  rfl

end Machine

/-! ## What an instruction asks for -/

/-- The register that the operands name as the destination. -/
def Operands.destination? : {shape : Shape} → Operands shape → Option String
  | _, .rrr rd _ _ => some rd
  | _, .rri rd _ _ => some rd
  | _, .rr _ _ => none
  | _, .r rd => some rd

namespace Instruction

/-- What an instruction with operands may ask for. -/
inductive Asks (i : Instruction) (ops : Operands i.shape) : Effect → Prop
  /-- a word for the register that the operands name as the destination -/
  | assign {rd : String} {v : Int} (hi : i ≠ .divide) (hrd : ops.destination? = some rd)
      (hv : IsWord v) : Asks i ops (.assign rd v)
  /-- two words for the accumulators, which only a division asks for -/
  | divided {d : Division} (hi : i = .divide) (hr : IsWord d.remainder) (hq : IsWord d.quotient) :
    Asks i ops (.divided d)
  /-- nothing -/
  | unexecuted {rs rt : String} : Asks i ops (.unexecuted rs rt)

/-- On a machine that holds words, an instruction asks for nothing else. -/
theorem asks_of_evaluate {m : Machine} (hm : m.HoldsWords) {i : Instruction}
    {ops : Operands i.shape} {effect : Effect} (h : i.evaluate m ops = .ok effect) :
    i.Asks ops effect := by
  match i, ops with
  | .registers op mode, .rrr rd rs rt =>
    obtain ⟨a, -, h⟩ := bind_eq_ok.1 h
    obtain ⟨b, -, h⟩ := bind_eq_ok.1 h
    obtain ⟨v, hv, h⟩ := bind_eq_ok.1 h
    cases h
    exact .assign (by simp) rfl (Operation.inRange_of_apply hv).isWord
  | .immediate op mode, .rri rd rs n =>
    obtain ⟨a, -, h⟩ := bind_eq_ok.1 h
    obtain ⟨v, hv, h⟩ := bind_eq_ok.1 h
    cases h
    exact .assign (by simp) rfl (Operation.inRange_of_apply hv).isWord
  | .multiply, .rr rs rt =>
    cases h
    exact .unexecuted
  | .divide, .rr rs rt =>
    obtain ⟨a, -, h⟩ := bind_eq_ok.1 h
    obtain ⟨b, -, h⟩ := bind_eq_ok.1 h
    obtain ⟨d, hd, h⟩ := bind_eq_ok.1 h
    cases h
    exact .divided rfl (inRange_of_divide hd).1.isWord (inRange_of_divide hd).2.isWord
  | .moveFrom a, .r rd =>
    -- Nothing is computed here, so the word is one only because the accumulator held one.
    cases h
    exact .assign (by simp) rfl (hm.accumulators a.index)

end Instruction

/-! ## The cases -/

namespace Machine

/-- What performing an instruction can come to. -/
inductive Performs (m : Machine) (opcode operands : String) : Run Failure Outcome → Prop
  /-- there is no such instruction -/
  | unknown (hop : Opcode.ofText? opcode = none) :
    Performs m opcode operands
      { machine := m
        events := []
        result := .error (.fault (.unknownOpcode opcode)) }
  /-- its operands are not read, it cannot be evaluated, or its destination cannot be written -/
  | refused {op : Opcode} {e : Failure} (hop : Opcode.ofText? opcode = some op)
      (h : op.instruction.interpret m opcode operands >>= Instruction.Effect.verdict =
        .error e) :
    Performs m opcode operands
      { machine := m
        events := [.note (.dispatching opcode op.instruction)]
        result := .error e }
  /-- it is understood and left at that -/
  | ignored {op : Opcode} {rs rt : String} (hop : Opcode.ofText? opcode = some op)
      (h : op.instruction.interpret m opcode operands = .ok (.unexecuted rs rt)) :
    Performs m opcode operands
      { machine := m
        events := [.note (.dispatching opcode op.instruction),
          .note (.unexecuted op.instruction rs rt)]
        result := .ok .ignored }
  /-- a word is written to a general register -/
  | assigned {op : Opcode} {rd : String} {v : Int} {i : Fin generalSize}
      (hop : Opcode.ofText? opcode = some op)
      (h : op.instruction.interpret m opcode operands = .ok (.assign rd v))
      (hrd : Bank.general.target rd = .ok i) (hv : IsWord v) :
    Performs m opcode operands
      { machine := m.assign i v
        events := [.note (.dispatching opcode op.instruction),
          .note (.wrote (Bank.general.name i) v),
          .report (.changes [m.assignmentChange i v])]
        result := .ok .executed }
  /-- two words are written to the accumulators -/
  | divided {op : Opcode} {d : Division} (hop : Opcode.ofText? opcode = some op)
      (h : op.instruction.interpret m opcode operands = .ok (.divided d))
      (hr : IsWord d.remainder) (hq : IsWord d.quotient) :
    Performs m opcode operands
      { machine := m.keepDivision d
        events := [.note (.dispatching opcode op.instruction),
          .note (.wrote Accumulator.hi.name d.remainder),
          .note (.wrote Accumulator.lo.name d.quotient),
          .report (.changes (m.divisionChanges d))]
        result := .ok .executed }

/-- Performing an instruction comes to one of the five. -/
theorem performs {m : Machine} (hm : m.HoldsWords) (opcode operands : String) :
    m.Performs opcode operands (m.perform opcode operands) := by
  cases hop : Opcode.ofText? opcode with
  | none =>
    simp only [perform, hop]
    exact .unknown hop
  | some op =>
    simp only [perform, hop]
    cases heval : op.instruction.interpret m opcode operands with
    | error e => exact .refused hop (by rw [heval, error_bind])
    | ok effect =>
      obtain ⟨ops, -, hops⟩ := bind_eq_ok.1 heval
      cases Instruction.asks_of_evaluate hm hops with
      | @assign rd v _ _ hv =>
        cases hrd : Bank.general.target rd with
        | error e =>
          simp only [m.commit_assign_of_error op.instruction v hrd]
          exact .refused hop (by rw [heval, ok_bind, Instruction.Effect.verdict, hrd, error_bind])
        | ok i =>
          simp only [m.commit_assign op.instruction hrd hv.writable]
          exact .assigned hop heval hrd hv
      | divided _ hr hq =>
        simp only [m.commit_divided op.instruction hr.writable hq.writable]
        exact .divided hop heval hr hq
      | unexecuted => exact .ignored hop heval

/-! ## Dispatch -/

/-- The reports that follow an instruction that did not succeed. -/
def faultReports : Except Failure Outcome → List Report
  | .error (.fault f) => [.error f.message]
  | _ => []

/-- How carrying an instruction out ends, from how performing it ends. -/
def settle : Except Failure Outcome → Except Halt Outcome
  | .ok outcome => .ok outcome
  | .error (.fault _) => .ok .failed
  | .error (.numeral e) => .error (.numeral e)

theorem machine_dispatch (m : Machine) (opcode operands : String) :
    (m.dispatch opcode operands).machine = (m.perform opcode operands).machine := by
  simp only [dispatch]
  split <;> rfl

theorem result_dispatch (m : Machine) (opcode operands : String) :
    (m.dispatch opcode operands).result = settle (m.perform opcode operands).result := by
  simp only [dispatch]
  split
  case _ outcome h => rw [h, settle]
  case _ f h => rw [h, settle]
  case _ e h => rw [h, settle]

/-- An instruction is announced, and if it is at fault it is told so. -/
theorem reports_dispatch (m : Machine) (opcode operands : String) :
    Event.reports (m.dispatch opcode operands).events =
      .instruction opcode operands :: (Event.reports (m.perform opcode operands).events ++
        faultReports (m.perform opcode operands).result) := by
  simp only [dispatch]
  split
  case _ outcome h => simp [h, faultReports, Event.reports]
  case _ f h => simp [h, faultReports, Event.reports]
  case _ e h => simp [h, faultReports, Event.reports]

/-- A view of the reports that does not see errors sees the announcement of an instruction and
what is reported while it is performed. -/
theorem filterMap_reports_dispatch {β : Type} {view : Report → Option β}
    (hview : ∀ message, view (.error message) = none) (m : Machine) (opcode operands : String) :
    (Event.reports (m.dispatch opcode operands).events).filterMap view =
      (view (.instruction opcode operands)).toList ++
        (Event.reports (m.perform opcode operands).events).filterMap view := by
  have faults : (faultReports (m.perform opcode operands).result).filterMap view = [] := by
    unfold faultReports
    split
    case _ f _ => exact List.filterMap_cons_none (hview f.message)
    case _ => rfl
  rw [reports_dispatch, List.filterMap_cons, List.filterMap_append, faults, List.append_nil]
  cases view (.instruction opcode operands) <;> rfl

end Machine

end TinyMips
