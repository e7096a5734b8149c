import TinyMips.Proofs.ReadBack

/-!
# What failures depend on

Whether an instruction succeeds can be read off its text, with one exception: a division depends on
whether its divisor is zero. The checks that an instruction makes are of names and of immediates,
and the divisor is the only register whose value is looked at (`Instruction.verdicts_checks_eq`), so
all other instructions end alike on all machines (`Machine.result_perform_eq`). The main statement
is that programs without divisions have the same fates and the same errors whatever the registers
hold, and that a division fails exactly if its divisor is congruent to zero modulo `2 ^ 32`
(`Machine.Reachable.fates_without_division`).
-/

namespace TinyMips

/-! ## Checks -/

/-- The outcome of an instruction that is not at fault. -/
def Instruction.outcome : Instruction → Outcome
  | .multiply => .ignored
  | _ => .executed

/-- The outcome of an instruction that asks for an effect and gets it. -/
def Instruction.Effect.outcome : Instruction.Effect → Outcome
  | .unexecuted .. => .ignored
  | _ => .executed

namespace Instruction

/-- Instructions ask for effects of their own outcome. -/
theorem outcome_of_evaluate {m : Machine} {i : Instruction} {ops : Operands i.shape}
    {effect : Effect} (h : i.evaluate m ops = .ok effect) : effect.outcome = i.outcome := by
  match i, ops with
  | .registers op mode, .rrr rd rs rt =>
    obtain ⟨a, -, h⟩ := bind_eq_ok.1 h
    obtain ⟨b, -, h⟩ := bind_eq_ok.1 h
    obtain ⟨v, -, h⟩ := bind_eq_ok.1 h
    cases h
    rfl
  | .immediate op mode, .rri rd rs n =>
    obtain ⟨a, -, h⟩ := bind_eq_ok.1 h
    obtain ⟨v, -, h⟩ := bind_eq_ok.1 h
    cases h
    rfl
  | .multiply, .rr rs rt =>
    cases h
    rfl
  | .divide, .rr rs rt =>
    obtain ⟨a, -, h⟩ := bind_eq_ok.1 h
    obtain ⟨b, -, h⟩ := bind_eq_ok.1 h
    obtain ⟨d, -, h⟩ := bind_eq_ok.1 h
    cases h
    rfl
  | .moveFrom a, .r rd =>
    cases h
    rfl

/-- The checks of an instruction that is not a division come out alike on all machines. -/
theorem verdicts_checks_eq {i : Instruction} (hi : i ≠ .divide) (m m' : Machine)
    (ops : Operands i.shape) :
    Check.verdicts m' (i.checks ops) = Check.verdicts m (i.checks ops) := by
  match i, ops with
  | .registers op mode, .rrr rd rs rt => rfl
  | .immediate op mode, .rri rd rs n =>
    simp only [checks, Operation.checks]
    split <;> rfl
  | .multiply, .rr rs rt => rfl
  | .divide, .rr rs rt => exact absurd rfl hi
  | .moveFrom a, .r rd => rfl

end Instruction

namespace Opcode

theorem text_of_ofText? {s : String} {op : Opcode} (h : ofText? s = some op) : op.text = s :=
  eq_of_beq (List.find?_some (p := fun op : Opcode => op.text == s) h)

end Opcode

namespace Machine

variable {m m' : Machine} {opcode operands : String}

/-! ## Instructions -/

/-- An instruction ends as its checks do, with its own outcome if they come out well. -/
theorem Performs.result_eq {run : Run Failure Outcome} (h : m.Performs opcode operands run)
    {op : Opcode} (hop : Opcode.ofText? opcode = some op) :
    run.result = (Operands.parse op.instruction.shape opcode operands >>= fun ops =>
      Check.verdicts m (op.instruction.checks ops)).map fun _ => op.instruction.outcome := by
  rw [← Opcode.interpret_verdict]
  have outcome : ∀ effect, op.instruction.interpret m opcode operands = .ok effect →
      effect.outcome = op.instruction.outcome := fun effect heffect => by
    obtain ⟨ops, -, heval⟩ := bind_eq_ok.1 heffect
    exact Instruction.outcome_of_evaluate heval
  cases h with
  | unknown hnone => cases hnone.symm.trans hop
  | refused hop' h =>
    obtain rfl := Option.some.inj (hop'.symm.trans hop)
    rw [h]
    rfl
  | ignored hop' h =>
    obtain rfl := Option.some.inj (hop'.symm.trans hop)
    rw [h, ← outcome _ h]
    rfl
  | assigned hop' h hrd _ =>
    obtain rfl := Option.some.inj (hop'.symm.trans hop)
    rw [h, ← outcome _ h, ok_bind, Instruction.Effect.verdict, hrd]
    rfl
  | divided hop' h _ _ =>
    obtain rfl := Option.some.inj (hop'.symm.trans hop)
    rw [h, ← outcome _ h]
    rfl

/-- Instructions other than divisions end alike on all machines. -/
theorem result_perform_eq (hm : m.HoldsWords) (hm' : m'.HoldsWords)
    (hopcode : opcode ≠ Opcode.div.text) :
    (m'.perform opcode operands).result = (m.perform opcode operands).result := by
  cases hop : Opcode.ofText? opcode with
  | none => simp only [perform, hop]
  | some op =>
    have notDivide : op.instruction ≠ .divide := fun hdivide => by
      obtain rfl := Opcode.instruction_eq_divide_iff.1 hdivide
      exact hopcode (Opcode.text_of_ofText? hop).symm
    rw [(performs hm' opcode operands).result_eq hop, (performs hm opcode operands).result_eq hop]
    simp only [Instruction.verdicts_checks_eq notDivide m m']

/-- A division of registers fails if the divisor is congruent to zero, and else is executed. -/
theorem HoldsWords.result_division (hm : m.HoldsWords) {rs rt : String} {i j : Fin generalSize}
    (hops : Operands.parse .rr Opcode.div.text operands = .ok (.rr rs rt))
    (hrs : Bank.general.find rs = .ok (some i)) (hrt : Bank.general.find rt = .ok (some j)) :
    (m.dispatch Opcode.div.text operands).result =
      .ok (if m.general.value j % wordSize = 0 then .failed else .executed) := by
  have checked : Check.verdicts m (Instruction.divide.checks (.rr rs rt)) =
      if m.general.value j % wordSize = 0 then .error (.fault .divisionByZero) else .ok () := by
    simp only [Instruction.checks, Check.verdicts, Check.verdict_divisor m hrt]
    simp only [Check.verdict, Bank.source_of_find hrs, Bank.source_of_find hrt, ok_bind, pure_bind]
    split <;> rfl
  have performed := (performs hm Opcode.div.text operands).result_eq (Opcode.ofText?_text .div)
  change _ = (Operands.parse .rr _ operands >>= fun ops =>
    Check.verdicts m (Instruction.divide.checks ops)).map _ at performed
  rw [hops, ok_bind, checked] at performed
  rw [result_dispatch, performed]
  split <;> rfl

end Machine

/-! ## Programs -/

/-- The name of the instruction that a line asks for, if it asks for one. -/
def Item.opcode? : Item → Option String
  | .statement s => some s.opcode
  | .malformed _ => none

/-- What became of a line, with the errors that are told of it. -/
def Stage.account (stage : Stage) : Item × Fate × List String :=
  (stage.item, stage.fate, Event.errors stage.events)

namespace Machine

variable {m m' : Machine}

theorem account_eq (hm : m.HoldsWords) (hm' : m'.HoldsWords) {item : Item}
    (hitem : item.opcode? ≠ some Opcode.div.text) :
    (m'.stage item).account = (m.stage item).account := by
  cases item with
  | malformed line => rfl
  | statement s =>
    have performed : (m'.perform s.opcode s.operands).result =
        (m.perform s.opcode s.operands).result :=
      result_perform_eq hm hm' fun hdiv => hitem (congrArg some hdiv)
    have fate : m'.fate (.statement s) = m.fate (.statement s) := by
      simp only [Machine.fate, result_dispatch, performed]
    have errors : Event.errors (m'.dispatch s.opcode s.operands).events =
        Event.errors (m.dispatch s.opcode s.operands).events := by
      rw [hm'.errors_dispatch, hm.errors_dispatch, performed]
    exact congrArg (Prod.mk _) (Prod.ext fate errors)

/-- Programs without divisions fare alike on all machines, line by line and as a whole. -/
theorem accounts_eq (hm : m.HoldsWords) (hm' : m'.HoldsWords) {items : List Item}
    (hitems : ∀ item ∈ items, item.opcode? ≠ some Opcode.div.text) :
    (m'.stages items).map Stage.account = (m.stages items).map Stage.account ∧
      (m'.runItems items).result = (m.runItems items).result := by
  induction items generalizing m m' with
  | nil => exact ⟨rfl, rfl⟩
  | cons item rest ih =>
    obtain ⟨hitem, hrest⟩ := List.forall_mem_cons.1 hitems
    have account := account_eq hm hm' hitem
    have fate : m'.fate item = m.fate item := (Prod.mk.inj (Prod.mk.inj account).2).1
    have result : (m'.runItem item).result = (m.runItem item).result := by
      rw [result_runItem, result_runItem, fate]
    cases h : (m.runItem item).result with
    | error halt =>
      rw [h] at result
      rw [stages_cons_of_error result, stages_cons_of_error h, runItems, runItems,
        Run.andThen_of_error result, Run.andThen_of_error h]
      exact ⟨congrArg (fun account => [account]) account, rfl⟩
    | ok failures =>
      rw [h] at result
      -- The machines differ now, but both hold words again.
      obtain ⟨accounts, results⟩ := ih (hm.runItem item) (hm'.runItem item) hrest
      rw [stages_cons_of_ok result, stages_cons_of_ok h, runItems_cons_of_ok result,
        runItems_cons_of_ok h, List.map_cons, List.map_cons, account, accounts]
      exact ⟨rfl, congrArg (Except.map (failures + ·)) results⟩

end Machine

/-! ## Lines that tell errors -/

namespace Reading

/-- The lines of a text that tell errors. -/
def errorLines (text : String) : List (List Char) :=
  (Text.lines text.toList).filter (startsWith "[ERR]: ")

end Reading

namespace Report

open Reading

/-- Of the lines of a report, those of errors start as lines of errors do, in every layout. -/
theorem IsReadable.filter_lines {report : Report} (h : report.IsReadable) (layout : Layout) :
    (report.lines layout).filter (startsWith "[ERR]: ") =
      report.error?.toList.map fun message => "[ERR]: ".toList ++ message.toList := by
  cases h with
  | instruction => rfl
  | error =>
    exact List.filter_cons_of_pos (List.isPrefixOf_iff_prefix.2 (List.prefix_append _ _))
  | @changes list hnames hne =>
    refine List.filter_eq_nil_iff.2 fun line hline hstarts => ?_
    obtain ⟨rest, rfl⟩ := List.isPrefixOf_iff_prefix.1 hstarts
    exact (hnames.within_lines hne layout _ hline '[' List.mem_cons_self).2 rfl

end Report

/-- The lines of a text that tell errors are the errors that were reported, in every layout. -/
theorem Event.errorLines_output {events : List Event}
    (h : ∀ report ∈ reports events, report.IsReadable) (layout : Layout) :
    Reading.errorLines (output layout events) =
      (errors events).map fun message => "[ERR]: ".toList ++ message.toList := by
  rw [Reading.errorLines, lines_output h, List.filter_flatMap, errors,
    List.filterMap_eq_flatMap_toList, List.map_flatMap]
  exact List.flatMap_congr fun report hreport => (h report hreport).filter_lines layout

namespace Machine

variable {m m' : Machine}

theorem HoldsWords.isReadable_execute (hm : m.HoldsWords) (source : String) :
    ∀ report ∈ Event.reports (m.execute source).events, report.IsReadable := by
  have told : ∀ stage ∈ m.stages (Item.ofSource source), stage.Tells :=
    forall_mem_stages (fun _ item h => HoldsWords.runItem h item) (fun _ h item hitem =>
      h.tells_stage (Item.isOneLine_of_mem_ofSource source item hitem)) hm
  rw [execute, events_runItems]
  exact (tells_flatMap told).1

theorem errors_execute (m : Machine) (source : String) :
    Event.errors (m.execute source).events =
      ((m.stages (Item.ofSource source)).map Stage.account).flatMap (·.2.2) := by
  rw [execute, events_runItems, List.flatMap_map]
  induction m.stages (Item.ofSource source) with
  | nil => rfl
  | cons stage rest ih =>
    rw [List.flatMap_cons, List.flatMap_cons, Event.errors_append, ih]
    rfl

/-- **Only divisions fail because of what registers hold.** Take two reachable machines. A program
without divisions gives each of its lines the same fate on both, tells the same errors in the same
order, on the same lines of what is printed in every layout, and ends alike. A division whose
operands are read and are registers fails if the second register is congruent to zero modulo
`2 ^ 32`, and otherwise is executed. -/
theorem Reachable.fates_without_division (hm : m.Reachable) (hm' : m'.Reachable) :
    (∀ source, (∀ item ∈ Item.ofSource source, item.opcode? ≠ some Opcode.div.text) →
      let items := Item.ofSource source
      let run := m.execute source
      let run' := m'.execute source
      (m'.stages items).map Stage.account = (m.stages items).map Stage.account ∧
        Event.errors run'.events = Event.errors run.events ∧
        (∀ layout, Reading.errorLines (Event.output layout run'.events) =
          Reading.errorLines (Event.output layout run.events)) ∧
        run'.result = run.result) ∧
    ∀ operands rs rt i j, Operands.parse .rr Opcode.div.text operands = .ok (.rr rs rt) →
      Bank.general.find rs = .ok (some i) → Bank.general.find rt = .ok (some j) →
      (m.dispatch Opcode.div.text operands).result =
        .ok (if m.general.value j % wordSize = 0 then .failed else .executed) := by
  have words := hm.holdsWords
  have words' := hm'.holdsWords
  constructor
  · intro source hsource items run run'
    obtain ⟨accounts, result⟩ := accounts_eq words words' hsource
    have errors : Event.errors run'.events = Event.errors run.events := by
      rw [errors_execute, errors_execute, accounts]
    refine ⟨accounts, errors, fun layout => ?_, result⟩
    rw [Event.errorLines_output (words'.isReadable_execute source),
      Event.errorLines_output (words.isReadable_execute source), errors]
  · exact fun operands rs rt i j hops hrs hrt => words.result_division hops hrs hrt

/-- The machine of zeros and one with the sign bit set in `$t1`, which is not zero as a divisor, and
a program with an amount out of range, a protected register, an unknown one and a line that cannot
be read. -/
theorem fates_without_division_sign_bit :
    let m' := (zero.execute "addiu $8,$0,-1\nsll $9,$8,31").machine
    let source := "sll $8,$9,32\nadd $0,$9,$9\nmult $8,$9\nadd $10,$9,$99\n3 oops\nsub $10,$0,$9"
    zero.Reachable ∧ m'.Reachable ∧
      (∀ item ∈ Item.ofSource source, item.opcode? ≠ some Opcode.div.text) ∧
      Event.errors (m'.execute source).events = Event.errors (zero.execute source).events ∧
      (m'.execute source).result = .ok 4 ∧
      (zero.dispatch "div" "$8,$9").result = .ok .failed ∧
      (m'.dispatch "div" "$8,$9").result = .ok .executed := by
  intro m' source
  have reachable : m'.Reachable := .execute .zero _
  have undivided : ∀ item ∈ Item.ofSource source, item.opcode? ≠ some Opcode.div.text := by
    decide +kernel
  have read : Operands.parse .rr Opcode.div.text "$8,$9" = .ok (.rr "$8" "$9") := by
    decide +kernel
  have found : Bank.general.find "$8" = .ok (some 8) ∧ Bank.general.find "$9" = .ok (some 9) := by
    decide +kernel
  obtain ⟨alike, zero_divides⟩ := Reachable.fates_without_division .zero reachable
  obtain ⟨-, divides⟩ := Reachable.fates_without_division reachable .zero
  obtain ⟨-, errors, -, result⟩ := alike source undivided
  refine ⟨.zero, reachable, undivided, errors, result.trans (by decide +kernel), ?_, ?_⟩
  · exact zero_divides _ _ _ _ _ read found.1 found.2
  · exact (divides _ _ _ _ _ read found.1 found.2).trans (by decide +kernel)

end Machine

end TinyMips
