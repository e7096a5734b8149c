import TinyMips.Proofs.ImmediateForms
import TinyMips.Proofs.ReadBack
import TinyMips.Proofs.Respelling

/-!
# Instructions in other spellings

All registers are looked up by what they mean, for reading, for writing and for the report of a
change. So instructions whose operands are respelled ask for the same
(`Instruction.evaluate_respelled`) and are performed alike (`Machine.perform_respelled`). The main
statement is that it makes no difference to an instruction how its registers are spelled, and that
no spelling of the first register can be written (`Machine.spellings_interchangeable`).
-/

namespace TinyMips

/-! ## What respelled instructions ask for -/

namespace RegisterFile

variable {a b : String}

/-- A register is read alike under names that are resolved alike. -/
theorem get_eq_of_canonical_eq (file : RegisterFile Bank.general)
    (h : Bank.general.canonical a = Bank.general.canonical b) : file.get a = file.get b := by
  rw [get, get, source_eq_of_canonical_eq h]

/-- A register is written alike, and the changes are reported under one name. -/
theorem update_eq_of_canonical_eq (file : RegisterFile Bank.general)
    (h : Bank.general.canonical a = Bank.general.canonical b) (v : Int) :
    file.update [(a, v)] = file.update [(b, v)] := by
  simp only [update, targets_cons, target_eq_of_canonical_eq h]

/-- A batch fails if there is a name in it that cannot be written. -/
theorem exists_targets_error {size : Nat} {bank : Bank size} {batch : List (String × Int)}
    {change : String × Int} {e : Failure} (hmem : change ∈ batch)
    (he : bank.target change.1 = .error e) : ∃ e', targets bank batch = .error e' := by
  induction batch with
  | nil => cases hmem
  | cons first rest ih =>
    obtain ⟨name, v⟩ := first
    rw [targets_cons]
    cases htarget : bank.target name with
    | error e' => exact ⟨e', rfl⟩
    | ok i =>
      rcases List.mem_cons.1 hmem with rfl | hmem
      · cases htarget.symm.trans he
      · obtain ⟨e', hrest⟩ := ih hmem
        exact ⟨e', by rw [ok_bind, hrest, error_bind]⟩

end RegisterFile

namespace Instruction

/-- What two instructions can ask for whose operands are respelled. -/
inductive AsksAlike : Except Failure Effect → Except Failure Effect → Prop
  /-- they fail alike -/
  | refused (e : Failure) : AsksAlike (.error e) (.error e)
  /-- they ask for the same value in registers that are resolved alike -/
  | assign {a b : String} (h : Bank.general.canonical a = Bank.general.canonical b) (v : Int) :
    AsksAlike (.ok (.assign a v)) (.ok (.assign b v))
  /-- they ask for the same accumulators -/
  | divided (d : Division) : AsksAlike (.ok (.divided d)) (.ok (.divided d))
  /-- they ask for nothing -/
  | unexecuted (rs rt rs' rt' : String) :
    AsksAlike (.ok (.unexecuted rs rt)) (.ok (.unexecuted rs' rt'))

theorem AsksAlike.bind {α : Type} (x : Except Failure α) {f g : α → Except Failure Effect}
    (h : ∀ a, AsksAlike (f a) (g a)) : AsksAlike (x >>= f) (x >>= g) := by
  cases x with
  | error e => exact .refused e
  | ok a => exact h a

/-- Sources are looked up by what they mean, so instructions whose operands are respelled ask for
the same. -/
theorem evaluate_respelled (m : Machine) (i : Instruction) {a b : Operands i.shape}
    (h : a.IsRespelled b) : AsksAlike (i.evaluate m a) (i.evaluate m b) := by
  match i, a, b with
  | .registers op mode, .rrr rd rs rt, .rrr rd' rs' rt' =>
    obtain _ | ⟨⟨hrd⟩, _ | ⟨⟨hrs⟩, _ | ⟨⟨hrt⟩, -⟩⟩⟩ := h
    rw [evaluate, m.general.get_eq_of_canonical_eq hrs, m.general.get_eq_of_canonical_eq hrt]
    exact .bind _ fun _ => .bind _ fun _ => .bind _ fun v => .assign hrd v
  | .immediate op mode, .rri rd rs n, .rri rd' rs' n' =>
    obtain _ | ⟨⟨hrd⟩, _ | ⟨⟨hrs⟩, _ | ⟨⟨⟩, -⟩⟩⟩ := h
    rw [evaluate, m.general.get_eq_of_canonical_eq hrs]
    exact .bind _ fun _ => .bind _ fun v => .assign hrd v
  | .multiply, .rr rs rt, .rr rs' rt' => exact .unexecuted rs rt rs' rt'
  | .divide, .rr rs rt, .rr rs' rt' =>
    obtain _ | ⟨⟨hrs⟩, _ | ⟨⟨hrt⟩, -⟩⟩ := h
    rw [evaluate, m.general.get_eq_of_canonical_eq hrs, m.general.get_eq_of_canonical_eq hrt]
    exact .bind _ fun _ => .bind _ fun _ => .bind _ fun d => .divided d
  | .moveFrom acc, .r rd, .r rd' =>
    obtain _ | ⟨⟨hrd⟩, -⟩ := h
    exact .assign hrd _

/-- Whatever an instruction with a destination asks for, it asks for there. -/
theorem exists_assign_of_destination? {m : Machine} {i : Instruction} {ops : Operands i.shape}
    {rd : String} (hrd : ops.destination? = some rd) {effect : Effect}
    (h : i.evaluate m ops = .ok effect) : ∃ v, effect = .assign rd v := by
  match i, ops with
  | .registers op mode, .rrr rd' rs rt =>
    cases hrd
    obtain ⟨a, -, h⟩ := bind_eq_ok.1 h
    obtain ⟨b, -, h⟩ := bind_eq_ok.1 h
    obtain ⟨v, -, h⟩ := bind_eq_ok.1 h
    exact ⟨v, (Except.ok.inj h).symm⟩
  | .immediate op mode, .rri rd' rs n =>
    cases hrd
    obtain ⟨a, -, h⟩ := bind_eq_ok.1 h
    obtain ⟨v, -, h⟩ := bind_eq_ok.1 h
    exact ⟨v, (Except.ok.inj h).symm⟩
  | .multiply, .rr rs rt => cases hrd
  | .divide, .rr rs rt => cases hrd
  | .moveFrom acc, .r rd' =>
    cases hrd
    exact ⟨_, (Except.ok.inj h).symm⟩

end Instruction

/-! ## What respelled instructions come to -/

/-- Whether a text is refused as the operands of an instruction. -/
def Operands.IsMalformed (op : Opcode) (opcode s : String) : Prop :=
  parse op.instruction.shape opcode s =
    .error (.fault (.malformedOperands op.instruction.shape opcode s))

namespace Machine

variable {m : Machine} {opcode s t : String}

theorem commit_respelled (m : Machine) (i : Instruction) {x y : Instruction.Effect}
    (h : Instruction.AsksAlike (.ok x) (.ok y)) : (m.commit i x).Agrees (m.commit i y) := by
  cases h with
  | assign h v =>
    simp only [commit, m.general.update_eq_of_canonical_eq h v]
    exact .refl _
  | divided d => exact .refl _
  | unexecuted rs rt rs' rt' => exact ⟨rfl, rfl, rfl⟩

/-- Instructions that ask for the same are performed alike. -/
theorem perform_of_asksAlike {op : Opcode} (hop : Opcode.ofText? opcode = some op)
    (h : Instruction.AsksAlike (op.instruction.interpret m opcode s)
      (op.instruction.interpret m opcode t)) :
    (m.perform opcode s).Agrees (m.perform opcode t) := by
  simp only [perform, hop]
  refine Run.Agrees.after ?_ _
  generalize op.instruction.interpret m opcode s = x at h
  generalize op.instruction.interpret m opcode t = y at h
  cases x with
  | error e => cases h; exact .refl _
  | ok effect =>
    cases y with
    | error e => cases h
    | ok effect' => exact m.commit_respelled op.instruction h

/-- Respelled instructions are performed alike, if their operands are not malformed. -/
theorem perform_respelled (m : Machine) (opcode : String) (h : Respelled s.toList t.toList) :
    (m.perform opcode s).Agrees (m.perform opcode t) ∨
      ∃ op, Opcode.ofText? opcode = some op ∧ Operands.IsMalformed op opcode s ∧
        Operands.IsMalformed op opcode t := by
  cases hop : Opcode.ofText? opcode with
  | none =>
    refine .inl ?_
    simp only [perform, hop]
    exact .refl _
  | some op =>
    have alike : Operands.ReadAlike opcode s t (Operands.parse op.instruction.shape opcode s)
        (Operands.parse op.instruction.shape opcode t) := Operands.parse_respelled h
    generalize hs : Operands.parse op.instruction.shape opcode s = x at alike
    generalize ht : Operands.parse op.instruction.shape opcode t = y at alike
    cases alike with
    | read same =>
      refine .inl (perform_of_asksAlike hop ?_)
      rw [Instruction.interpret_of_parse hs, Instruction.interpret_of_parse ht]
      exact op.instruction.evaluate_respelled m same
    | overlong e =>
      refine .inl (perform_of_asksAlike hop ?_)
      rw [Instruction.interpret, Instruction.interpret, hs, ht]
      exact .refused _
    | malformed => exact .inr ⟨op, rfl, hs, ht⟩

/-- Malformed operands are quoted as they are written, and nothing else happens. -/
theorem dispatch_malformed (m : Machine) {op : Opcode} (hop : Opcode.ofText? opcode = some op)
    (h : Operands.IsMalformed op opcode s) :
    (m.dispatch opcode s).result = .ok .failed ∧ (m.dispatch opcode s).machine = m ∧
      Event.reports (m.dispatch opcode s).events = [.instruction opcode s,
        .error (Fault.malformedOperands op.instruction.shape opcode s).message] ∧
      Event.changes (m.dispatch opcode s).events = [] := by
  have interpret : op.instruction.interpret m opcode s =
      .error (.fault (.malformedOperands op.instruction.shape opcode s)) := by
    rw [Instruction.interpret, h, error_bind]
  rw [result_dispatch, machine_dispatch, reports_dispatch, Event.changes, changeLists_dispatch]
  simp only [perform, hop, interpret]
  exact ⟨rfl, rfl, rfl, rfl⟩

/-- What is asked of an instruction on two texts for its operands. -/
structure AnswersAlike (m : Machine) (opcode s t : String) : Prop where
  /-- it comes to the same end -/
  result : (m.dispatch opcode s).result = (m.dispatch opcode t).result
  /-- it leaves the same registers -/
  machine : (m.dispatch opcode s).machine = (m.dispatch opcode t).machine
  /-- after the announcement it reports the same, unless it quotes malformed operands -/
  reports : (∃ rest, Event.reports (m.dispatch opcode s).events = .instruction opcode s :: rest ∧
      Event.reports (m.dispatch opcode t).events = .instruction opcode t :: rest) ∨
    ∃ op, Opcode.ofText? opcode = some op ∧
      ∀ text ∈ [s, t], Event.reports (m.dispatch opcode text).events =
        [.instruction opcode text,
          .error (Fault.malformedOperands op.instruction.shape opcode text).message]
  /-- it reports the same changes -/
  changes : Event.changes (m.dispatch opcode s).events = Event.changes (m.dispatch opcode t).events
  /-- in them the registers have their own names, on a reachable machine -/
  names : m.Reachable → Report.AreNamed (Event.changes (m.dispatch opcode s).events)

/-- Changes are reported under the names of registers. -/
theorem HoldsWords.areNamed_dispatch (hm : m.HoldsWords) (opcode operands : String) :
    Report.AreNamed (Event.changes (m.dispatch opcode operands).events) := by
  rw [Event.changes, changeLists_dispatch]
  intro change hchange
  obtain ⟨list, hlist, hchange⟩ := List.mem_flatten.1 hchange
  obtain ⟨report, hreport, hview⟩ := List.mem_filterMap.1 hlist
  have readable := (performs hm opcode operands).isReadable report hreport
  cases readable with
  | changes hnames hne =>
    obtain rfl := Option.some.inj hview
    exact hnames change hchange
  | _ => cases hview

theorem answersAlike (m : Machine) (opcode : String) (h : Respelled s.toList t.toList) :
    m.AnswersAlike opcode s t := by
  have names (hm : m.Reachable) := hm.holdsWords.areNamed_dispatch opcode s
  rcases m.perform_respelled opcode h with same | ⟨op, hop, hs, ht⟩
  · obtain ⟨result, machine, rest, hs, ht⟩ := dispatch_of_agrees same
    refine ⟨result, machine, .inl ⟨rest, hs, ht⟩, ?_, names⟩
    simp only [Event.changes, Event.changeLists, hs, ht]
    rfl
  · obtain ⟨result, machine, reports, changes⟩ := m.dispatch_malformed hop hs
    obtain ⟨result', machine', reports', changes'⟩ := m.dispatch_malformed hop ht
    refine ⟨result.trans result'.symm, machine.trans machine'.symm, .inr ⟨op, hop, ?_⟩,
      changes.trans changes'.symm, names⟩
    exact List.forall_mem_cons.2 ⟨reports, List.forall_mem_singleton.2 reports'⟩

/-! ## The first register -/

/-- What is asked of a name of the first register. -/
structure NeverWritten (name : String) : Prop where
  /-- no value can be given to it -/
  set : ∀ (file : RegisterFile Bank.general) (v : Int),
    file.set name v = .error (.fault (.protectedRegister "$zero"))
  /-- no batch with a change of it is carried out, not even in part -/
  update : ∀ (file : RegisterFile Bank.general) (batch : List (String × Int)),
    name ∈ batch.map Prod.fst → ∃ e, file.update batch = ⟨file, [], some e⟩
  /-- no instruction that has it for its destination is carried out. If the instruction can be
  evaluated, it is told that the register cannot be written -/
  dispatch : ∀ (m : Machine) (op : Opcode) (operands : String)
    (ops : Operands op.instruction.shape),
    Operands.parse op.instruction.shape op.text operands = .ok ops →
    ops.destination? = some name →
    (m.dispatch op.text operands).machine = m ∧
      Event.changeLists (m.dispatch op.text operands).events = [] ∧
      (m.dispatch op.text operands).result ≠ .ok .executed ∧
      ((∃ effect, op.instruction.evaluate m ops = .ok effect) →
        Event.reports (m.dispatch op.text operands).events =
          [.instruction op.text operands, .error "$zero cannot be written to"])

/-- An instruction whose destination is the first register is performed up to its end and then
refused. -/
theorem perform_of_destination_zero (m : Machine) {op : Opcode} {operands name : String}
    {ops : Operands op.instruction.shape}
    (hname : Bank.general.target name = .error (.fault (.protectedRegister "$zero")))
    (hops : Operands.parse op.instruction.shape op.text operands = .ok ops)
    (hdestination : ops.destination? = some name) :
    ∃ e, m.perform op.text operands = ⟨m, [.note (.dispatching op.text op.instruction)], .error e⟩ ∧
      ((∃ effect, op.instruction.evaluate m ops = .ok effect) →
        e = .fault (.protectedRegister "$zero")) := by
  simp only [perform, Opcode.ofText?_text, Instruction.interpret_of_parse hops]
  cases heval : op.instruction.evaluate m ops with
  | error e =>
    refine ⟨e, rfl, ?_⟩
    rintro ⟨effect, ⟨⟩⟩
  | ok effect =>
    obtain ⟨v, rfl⟩ := Instruction.exists_assign_of_destination? hdestination heval
    exact ⟨_, congrArg _ (m.commit_assign_of_error op.instruction v hname), fun _ => rfl⟩

theorem neverWritten {name : String} (h : IsSpelling name 0) : NeverWritten name where
  set file v := by rw [RegisterFile.set, h.target_zero, error_bind]
  update file batch hbatch := by
    obtain ⟨change, hchange, rfl⟩ := List.mem_map.1 hbatch
    obtain ⟨e, he⟩ := RegisterFile.exists_targets_error hchange h.target_zero
    exact ⟨e, by rw [RegisterFile.update, he]⟩
  dispatch m op operands ops hops hdestination := by
    obtain ⟨e, hperform, he⟩ := m.perform_of_destination_zero h.target_zero hops hdestination
    rw [machine_dispatch, changeLists_dispatch, result_dispatch, reports_dispatch, hperform]
    refine ⟨rfl, rfl, by cases e <;> simp [settle], fun heval => ?_⟩
    have message : (Fault.protectedRegister "$zero").message = "$zero cannot be written to" := rfl
    simp only [he heval, faultReports, message]
    rfl

/-- **Spellings are interchangeable.** Names are resolved as their spellings say. Take two texts
that are the same but for registers that are written with other names that are resolved alike. On
every machine an instruction comes to the same end with either of them and leaves the same
registers. It reports the same changes, on a reachable machine under the names of the registers, and
the same error, but that malformed operands are quoted as they are written. No spelling of the first
register can be written, be it by itself, in a batch or by an instruction. -/
theorem spellings_interchangeable :
    (∀ name, Bank.ResolvesGeneral name) ∧
      (∀ (m : Machine) (opcode s t : String), Respelled s.toList t.toList →
        m.AnswersAlike opcode s t) ∧
      ∀ name, IsSpelling name 0 → NeverWritten name :=
  ⟨Bank.resolves_general, fun m opcode _ _ => m.answersAlike opcode, fun _ => neverWritten⟩

/-- A sum in two spellings, with a tab that stands for five spaces in the one and for four in the
other, and a name of the first register in digits of two scripts. -/
theorem spellings_interchangeable_leadingZeros :
    let m := (zero.dispatch "ori" "$t0,$0,7").machine
    Respelled "$8,\t$t0,$008".toList "$t0,\t$8,$8".toList ∧
      m.AnswersAlike "add" "$8,\t$t0,$008" "$t0,\t$8,$8" ∧
      Event.changes (m.dispatch "add" "$8,\t$t0,$008").events = [⟨"$t0", 7, 14⟩] ∧
      IsSpelling "$0٠" 0 ∧ Bank.ResolvesGeneral "$0٠" ∧ NeverWritten "$0٠" := by
  intro m
  have t0 : IsToken "$t0" := ⟨['t', '0'], rfl, by decide, List.all_eq_true.1 rfl⟩
  have r8 : IsToken "$8" := ⟨['8'], rfl, by decide, List.all_eq_true.1 rfl⟩
  have r008 : IsToken "$008" := ⟨['0', '0', '8'], rfl, by decide, List.all_eq_true.1 rfl⟩
  have left : "$8,\t$t0,$008".toList =
      "$8".toList ++ ',' :: '\t' :: ("$t0".toList ++ ',' :: ("$008".toList ++ [])) := by decide
  have right : "$t0,\t$8,$8".toList =
      "$t0".toList ++ ',' :: '\t' :: ("$8".toList ++ ',' :: ("$8".toList ++ [])) := by decide
  have respelled : Respelled "$8,\t$t0,$008".toList "$t0,\t$8,$8".toList := by
    rw [left, right]
    refine .token r8 t0 rfl (Operands.stops_comma _) (.char ',' (.char '\t' ?_))
    refine .token t0 r8 rfl (Operands.stops_comma _) (.char ',' ?_)
    exact .token r008 r8 rfl Operands.stops_nil .nil
  have spelling : IsSpelling "$0٠" 0 :=
    .inr ⟨['0', '٠'], [0, 0], rfl, by decide, by decide, .cons rfl (.cons rfl .nil), rfl⟩
  obtain ⟨resolved, alike, never⟩ := spellings_interchangeable
  exact ⟨respelled, alike m "add" _ _ respelled, by decide +kernel, spelling, resolved _,
    never _ spelling⟩

end Machine

end TinyMips
