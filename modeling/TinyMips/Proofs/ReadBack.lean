import TinyMips.Proofs.Halting
import TinyMips.Proofs.Messages
import TinyMips.Proofs.Stages
import TinyMips.Proofs.TableText

/-!
# Reading a run back

What a program prints in the layout `grid` can be read back. The lines of the text are those of the
reports, one report after the other (`Event.lines_output`), and a reader who goes by the start of
each line finds an announcement for each statement, an error for each failure, a table for each
instruction that was executed, and in the rows of the tables the changes that were made, whatever
the program has for operands (`Machine.Reachable.reading_execute`).
-/

namespace TinyMips

/-! ## Reports -/

namespace Report

open Reading

/-- The lines of a report. An invitation has none, since it does not end the line that it starts. -/
def lines (layout : Layout) : Report → List (List Char)
  | .instruction opcode operands =>
    [[], "INSTRUCTION: ".toList ++ opcode.toList ++ " ".toList ++ operands.toList]
  | .changes list => (changeTable list).lines layout
  | .error message => ["[ERR]: ".toList ++ message.toList]
  | .registers list => (registerTable list).lines layout
  | .prompt => []

/-- The lines that make up a text are found again in it. -/
theorem lines_ofLines {ls : List (List Char)} (h : ∀ line ∈ ls, Text.IsOneLine line) :
    Text.lines (ofLines ls) = ls := by
  induction ls with
  | nil => rfl
  | cons line rest ih =>
    obtain ⟨hline, hrest⟩ := List.forall_mem_cons.1 h
    rw [ofLines, List.flatMap_cons, List.append_assoc, List.singleton_append,
      Text.lines_append_feed hline]
    exact congrArg (line :: ·) (ih hrest)

/-- The kinds of reports that there are of a line of a program. -/
inductive IsOfLine : Report → Prop
  /-- its instruction -/
  | instruction (opcode operands : String) : IsOfLine (.instruction opcode operands)
  /-- changes of registers -/
  | changes {list : List Change} (hnames : AreNamed list) : IsOfLine (.changes list)
  /-- what is wrong with it -/
  | error (message : String) : IsOfLine (.error message)

/-- Such reports are drawn in every layout. -/
theorem IsOfLine.draw {report : Report} (h : report.IsOfLine) (layout : Layout) :
    report.draw layout = .ok (report.render layout) := by
  cases h with
  | instruction => rfl
  | error => rfl
  | changes hnames =>
    exact draw_changes_of_isVerbatim
      (fun change hchange => Text.isVerbatim_of_isPlain (hnames.isPlain change hchange)) layout

/-- The reports of a program, none of which is broken into more lines than it has. -/
inductive IsReadable : Report → Prop
  /-- an instruction that comes from one line -/
  | instruction {opcode operands : String} (hopcode : Text.IsOneLine opcode.toList)
    (hoperands : Text.IsOneLine operands.toList) : IsReadable (.instruction opcode operands)
  /-- changes of registers -/
  | changes {list : List Change} (hnames : AreNamed list) (hne : list ≠ []) :
    IsReadable (.changes list)
  /-- an error that is told on one line -/
  | error {message : String} (hmessage : Text.IsOneLine message.toList) :
    IsReadable (.error message)

namespace IsReadable

variable {report : Report}

theorem render (h : report.IsReadable) (layout : Layout) :
    report.render layout = ofLines (report.lines layout) := by
  cases h <;> rfl

theorem isOneLine_lines (h : report.IsReadable) (layout : Layout) :
    ∀ line ∈ report.lines layout, Text.IsOneLine line := by
  cases h with
  | @instruction opcode operands hopcode hoperands =>
    have announced : Text.IsOneLine
        ("INSTRUCTION: ".toList ++ opcode.toList ++ " ".toList ++ operands.toList) :=
      Text.isOneLine_append.2 ⟨Text.isOneLine_append.2
        ⟨Text.isOneLine_append.2 ⟨by decide, hopcode⟩, by decide⟩, hoperands⟩
    exact List.forall_mem_cons.2 ⟨Text.isOneLine_nil, List.forall_mem_singleton.2 announced⟩
  | @error message hmessage =>
    have told : Text.IsOneLine ("[ERR]: ".toList ++ message.toList) :=
      Text.isOneLine_append.2 ⟨by decide, hmessage⟩
    exact List.forall_mem_singleton.2 told
  | changes hnames hne =>
    exact fun line hline c hc => (hnames.within_lines hne layout line hline c hc).1

theorem isOfLine (h : report.IsReadable) : report.IsOfLine := by
  cases h with
  | instruction => exact .instruction _ _
  | changes hnames => exact .changes hnames
  | error => exact .error _

end IsReadable

end Report

/-! ## Events -/

/-- The words of an error. -/
def Report.error? : Report → Option String
  | .error message => some message
  | _ => none

namespace Event

open Reading

/-- The errors that were reported, in order. -/
def errors (events : List Event) : List String :=
  (reports events).filterMap Report.error?

/-- What there is to be found in what events show of instructions, changes and errors. -/
def reading (events : List Event) : Reading where
  instructions := (instructions events).length
  errors := (errors events).length
  tables := (changeLists events).length
  rows := (changes events).map Change.cells

@[simp] theorem errors_append (a b : List Event) : errors (a ++ b) = errors a ++ errors b := by
  simp [errors]

theorem reading_append (a b : List Event) : reading (a ++ b) = (reading a).append (reading b) := by
  simp [reading, Reading.append]

end Event

namespace Report

open Reading

/-- What a reader finds in the lines of a report is what there is to be found. -/
theorem IsReadable.readsAs {report : Report} (h : report.IsReadable) :
    ReadsAs (report.lines .grid) (Event.reading [.report report]) := by
  have oneLine := h.isOneLine_lines .grid
  cases h with
  | instruction => exact ⟨oneLine, rfl⟩
  | error => exact ⟨oneLine, rfl⟩
  | @changes list hnames hne =>
    have rows : Event.changes [.report (.changes list)] = list := List.append_nil list
    rw [Event.reading, rows]
    exact readsAs_changeTable hnames hne

end Report

namespace Event

open Reading

/-- What a reader finds in the lines of reports is what there is to be found. -/
theorem readsAs_reports {events : List Event} (h : ∀ report ∈ reports events, report.IsReadable) :
    ReadsAs ((reports events).flatMap (Report.lines .grid)) (reading events) := by
  induction events with
  | nil => exact .nil
  | cons event rest ih =>
    cases event with
    | note note => exact ih h
    | report report =>
      obtain ⟨hreport, hrest⟩ := List.forall_mem_cons.1 h
      have whole := hreport.readsAs.append (ih hrest)
      rw [← reading_append] at whole
      exact whole

/-- The lines of a text are those of the reports that it shows, in every layout. -/
theorem lines_output {events : List Event} (h : ∀ report ∈ reports events, report.IsReadable)
    (layout : Layout) :
    Text.lines (output layout events).toList = (reports events).flatMap (Report.lines layout) := by
  have text : (reports events).flatMap (Report.render layout) =
      Report.ofLines ((reports events).flatMap (Report.lines layout)) := by
    rw [Report.ofLines, List.flatMap_assoc]
    exact List.flatMap_congr fun report hreport => (h report hreport).render layout
  have oneLine : ∀ line ∈ (reports events).flatMap (Report.lines layout), Text.IsOneLine line :=
    fun line hline => by
      obtain ⟨report, hreport, hline⟩ := List.mem_flatMap.1 hline
      exact (h report hreport).isOneLine_lines layout line hline
  rw [output, String.toList_ofList, text, Report.lines_ofLines oneLine]

end Event

/-! ## Stages -/

namespace Machine

variable {m : Machine} {opcode operands : String} {run : Run Failure Outcome}

namespace Performs

theorem errors_eq_nil (h : m.Performs opcode operands run) : Event.errors run.events = [] := by
  cases h <;> rfl

/-- The fault of an instruction is told on one line. -/
theorem isOneLine_message (h : m.Performs opcode operands run)
    (hopcode : Text.IsOneLine opcode.toList) {f : Fault} (hf : run.result = .error (.fault f)) :
    Text.IsOneLine f.message.toList := by
  cases h with
  | unknown =>
    cases hf
    exact Fault.isOneLine_message (by simp [Fault.bareTexts])
  | refused hop heval =>
    cases hf
    exact Opcode.isOneLine_message heval hopcode
  | ignored => cases hf
  | assigned => cases hf
  | divided => cases hf

theorem isReadable (h : m.Performs opcode operands run) :
    ∀ report ∈ Event.reports run.events, report.IsReadable := by
  cases h with
  | unknown => simp [Event.reports]
  | refused => simp [Event.reports]
  | ignored => simp [Event.reports]
  | @assigned op rd v i =>
    have named : Report.AreNamed [m.assignmentChange i v] :=
      List.forall_mem_singleton.2 ⟨.general i, rfl⟩
    exact List.forall_mem_singleton.2 (.changes named (List.cons_ne_nil _ _))
  | @divided op d =>
    have named : Report.AreNamed (m.divisionChanges d) :=
      List.forall_mem_cons.2 ⟨⟨.accumulator .hi, rfl⟩,
        List.forall_mem_singleton.2 ⟨.accumulator .lo, rfl⟩⟩
    exact List.forall_mem_singleton.2 (.changes named (List.cons_ne_nil _ _))

/-- One table is reported if the instruction is executed, and none otherwise. -/
theorem length_changeLists (h : m.Performs opcode operands run) :
    (Event.changeLists run.events).length =
      if Fate.ofResult (settle run.result) = .dispatched .executed then 1 else 0 := by
  cases h with
  | unknown => rfl
  | @refused op e => cases e <;> rfl
  | ignored => rfl
  | assigned => rfl
  | divided => rfl

/-- A fault is reported if the instruction fails, and none otherwise. -/
theorem length_faultReports (h : m.Performs opcode operands run) :
    (faultReports run.result).length = (Fate.ofResult (settle run.result)).failures := by
  cases h with
  | unknown => rfl
  | @refused op e => cases e <;> rfl
  | ignored => rfl
  | assigned => rfl
  | divided => rfl

end Performs

theorem length_filterMap_faultReports (result : Except Failure Outcome) :
    ((faultReports result).filterMap Report.error?).length = (faultReports result).length := by
  unfold faultReports
  split <;> rfl

end Machine

/-- Whether the reports of a line of a program tell what it came to, each on its lines. -/
structure Stage.Tells (stage : Stage) : Prop where
  /-- the reports are not broken into more lines than they have -/
  readable : ∀ report ∈ Event.reports stage.events, report.IsReadable
  /-- a statement is announced -/
  instructions : Event.instructions stage.events = Item.instructions [stage.item]
  /-- there is an error for a failure -/
  errors : (Event.errors stage.events).length = stage.fate.failures
  /-- there is a table for an instruction that is executed -/
  tables : (Event.changeLists stage.events).length =
    if stage.fate = .dispatched .executed then 1 else 0

namespace Machine

namespace HoldsWords

variable {m : Machine}

/-- The errors of an instruction are those that its fault is told with. -/
theorem errors_dispatch (hm : m.HoldsWords) (opcode operands : String) :
    Event.errors (m.dispatch opcode operands).events =
      (faultReports (m.perform opcode operands).result).filterMap Report.error? := by
  have performed : (Event.reports (m.perform opcode operands).events).filterMap
      Report.error? = [] := (performs hm opcode operands).errors_eq_nil
  rw [Event.errors, reports_dispatch, List.filterMap_cons_none rfl, List.filterMap_append,
    performed, List.nil_append]

/-- An instruction that fails has an error, and no other has one. -/
theorem length_errors_dispatch (hm : m.HoldsWords) (opcode operands : String) :
    (Event.errors (m.dispatch opcode operands).events).length =
      (Fate.ofResult (m.dispatch opcode operands).result).failures := by
  rw [hm.errors_dispatch, length_filterMap_faultReports, result_dispatch,
    (performs hm opcode operands).length_faultReports]

/-- All reports of an instruction from one line can be found again. -/
theorem isReadable_dispatch (hm : m.HoldsWords) {opcode operands : String}
    (hopcode : Text.IsOneLine opcode.toList) (hoperands : Text.IsOneLine operands.toList) :
    ∀ report ∈ Event.reports (m.dispatch opcode operands).events, report.IsReadable := by
  have h := performs hm opcode operands
  rw [reports_dispatch, List.forall_mem_cons, List.forall_mem_append]
  refine ⟨.instruction hopcode hoperands, h.isReadable, fun report hreport => ?_⟩
  unfold faultReports at hreport
  split at hreport
  case _ f hf =>
    obtain rfl := List.mem_singleton.1 hreport
    exact .error (h.isOneLine_message hopcode hf)
  case _ => cases hreport

/-- There are no other reports of a line. -/
theorem isOfLine_runItem (hm : m.HoldsWords) (item : Item) :
    ∀ report ∈ Event.reports (m.runItem item).events, report.IsOfLine := by
  cases item with
  | malformed line => exact List.forall_mem_singleton.2 (.error _)
  | statement s =>
    change ∀ report ∈ Event.reports (m.dispatch s.opcode s.operands).events, _
    rw [reports_dispatch, List.forall_mem_cons, List.forall_mem_append]
    refine ⟨.instruction _ _, fun report hreport => ?_, fun report hreport => ?_⟩
    · exact ((performs hm s.opcode s.operands).isReadable report hreport).isOfLine
    · unfold faultReports at hreport
      split at hreport
      case _ =>
        obtain rfl := List.mem_singleton.1 hreport
        exact .error _
      case _ => cases hreport

/-- The reports of every line tell what it came to. -/
theorem tells_stage (hm : m.HoldsWords) {item : Item} (hitem : item.IsOneLine) :
    (m.stage item).Tells := by
  cases item with
  | malformed line =>
    exact ⟨List.forall_mem_singleton.2 (.error line.isOneLine_message), rfl, rfl, rfl⟩
  | statement s =>
    constructor
    case readable => exact hm.isReadable_dispatch hitem.1 hitem.2
    case instructions => exact hm.instructions_dispatch s.opcode s.operands
    case errors => exact hm.length_errors_dispatch s.opcode s.operands
    case tables =>
      change (Event.changeLists (m.dispatch s.opcode s.operands).events).length =
        if Fate.ofResult (m.dispatch s.opcode s.operands).result = .dispatched .executed then 1
        else 0
      rw [changeLists_dispatch, result_dispatch]
      exact (performs hm s.opcode s.operands).length_changeLists

end HoldsWords

/-! ## Programs -/

/-- The reports of stages that each tell what they came to tell it of all of them. -/
theorem tells_flatMap {stages : List Stage} (h : ∀ stage ∈ stages, stage.Tells) :
    let events := stages.flatMap Stage.events
    (∀ report ∈ Event.reports events, report.IsReadable) ∧
      Event.instructions events = Item.instructions (stages.map Stage.item) ∧
      (Event.errors events).length = (stages.map (·.fate.failures)).sum ∧
      (Event.changeLists events).length = stages.countP (·.fate = .dispatched .executed) := by
  induction stages with
  | nil => exact ⟨fun _ hreport => absurd hreport List.not_mem_nil, rfl, rfl, rfl⟩
  | cons stage rest ih =>
    obtain ⟨hstage, hrest⟩ := List.forall_mem_cons.1 h
    obtain ⟨readable, instructions, errors, tables⟩ := ih hrest
    simp only [List.flatMap_cons]
    refine ⟨?_, ?_, ?_, ?_⟩
    · rw [Event.reports_append]
      exact List.forall_mem_append.2 ⟨hstage.readable, readable⟩
    · rw [Event.instructions_append, hstage.instructions, instructions,
        ← Item.instructions_append]
      rfl
    · rw [Event.errors_append, List.length_append, hstage.errors, errors, List.map_cons,
        List.sum_cons]
    · rw [Event.changeLists_append, List.length_append, hstage.tables, tables, List.countP_cons,
        Nat.add_comm]
      simp

/-- **Runs can be read back.** Take a program that is run to its end on a reachable machine. All its
reports are drawn, and the lines of what is printed in the layout `grid` are those of the reports,
one after the other. In this text a reader finds an instruction for each statement of the program,
an error for each failure, a table for each instruction that is executed, and in the rows of the
tables the name, the value before and the value after of each change, in order. These changes
lead from the machine at the start to the machine at the end. -/
theorem Reachable.reading_execute {m : Machine} (hm : m.Reachable) {source : String}
    {failures : Nat} (hrun : (m.execute source).result = .ok failures) :
    let events := (m.execute source).events
    let text := Event.output .grid events
    (∀ report ∈ Event.reports events, report.draw .grid = .ok (report.render .grid)) ∧
      Text.lines text.toList = (Event.reports events).flatMap (Report.lines .grid) ∧
      Reading.ofText text =
        { instructions := (Item.instructions (Item.ofSource source)).length
          errors := failures
          tables := (m.stages (Item.ofSource source)).countP (·.fate = .dispatched .executed)
          rows := (Event.changes events).map Change.cells } ∧
      m.replay? (Event.changes events) = some (m.execute source).machine := by
  have words := hm.holdsWords
  have told : ∀ stage ∈ m.stages (Item.ofSource source), stage.Tells :=
    forall_mem_stages (fun _ item h => HoldsWords.runItem h item) (fun _ h item hitem =>
      h.tells_stage (Item.isOneLine_of_mem_ofSource source item hitem)) words
  obtain ⟨readable, instructions, errors, tables⟩ := tells_flatMap told
  obtain ⟨hitems, hfailures⟩ := stages_of_result_eq_ok hrun
  have seen : (m.execute source).events =
      (m.stages (Item.ofSource source)).flatMap Stage.events := events_runItems _ _
  rw [← seen] at readable instructions errors tables
  have lines := Event.lines_output readable .grid
  refine ⟨fun report hreport => (readable report hreport).isOfLine.draw .grid, lines, ?_,
    (words.accounts_runItems _).replay⟩
  rw [Reading.ofText, lines, (Event.readsAs_reports readable).reading, Event.reading,
    instructions, errors, tables, hitems, hfailures]

/-- A program whose operands and lines look like a row, an error and a table. -/
theorem reading_execute_forgery :
    let source := "ori $t0,$0,5\nadd | $t0 | 1 | 2 |\n[ERR]: $t0\ndiv $t0,$t0\nmult += \x1b[0m\n"
    let text := Event.output .grid (zero.execute source).events
    zero.Reachable ∧ (zero.execute source).result = .ok 3 ∧
      Reading.ofText text =
        { instructions := 4
          errors := 3
          tables := 2
          rows := [["$t0", "0", "5"], ["hi", "0", "0"], ["lo", "0", "1"]] } := by
  intro source text
  have run : (zero.execute source).result = .ok 3 := by decide +kernel
  obtain ⟨-, -, reading, -⟩ := Reachable.reading_execute .zero run
  exact ⟨.zero, run, reading.trans (by decide +kernel)⟩

end Machine

end TinyMips
