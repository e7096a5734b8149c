import TinyMips.Proofs.ExitCode
import TinyMips.Proofs.ReadBack

/-!
# The list at the end

Two things can list the registers: a line of a session that asks for it, and the option to list them
at the end. What a run prints is therefore compared with what it prints without the option. The list
comes after all else, and it comes exactly if the run comes to a normal end and no interruption
strikes before (`Program.ListsAtEnd`); otherwise the option makes no difference. Together with the
exit code this is the main statement (`Program.exitCode_and_output_transcript`).
-/

namespace TinyMips

/-- The options without the list of the registers at the end. -/
def Options.silent (options : Options) : Options :=
  { options with patch := { options.patch with dump? := some false } }

/-! ## Registers in a list -/

theorem Machine.toList_eq (m : Machine) :
    m.toList = Register.all.map fun r => (r.name, m.value r) := by
  rw [Register.all, List.map_append, List.map_map]
  rfl

/-- A list of the registers is drawn in every layout. -/
theorem Machine.draw_registers (m : Machine) (layout : Layout) :
    (Report.registers m.toList).draw layout = .ok ((Report.registers m.toList).render layout) := by
  have drawn : (Report.registers m.toList).table?.bind (Table.fault? layout) = none := by
    refine Table.fault?_eq_none layout fun row hrow => ?_
    rw [Machine.toList_eq] at hrow
    obtain ⟨entry, hentry, rfl⟩ := List.mem_map.1 hrow
    obtain ⟨r, -, rfl⟩ := List.mem_map.1 hentry
    exact Text.isVerbatim_of_isPlain r.isPlain_name
  rw [Report.draw, drawn]

/-! ## Reports at the start -/

theorem Update.reports_notes {size : Nat} {bank : Bank size} (update : Update bank) :
    Event.reports update.notes = [] := by
  rw [Event.reports, Update.notes, List.filterMap_map]
  exact List.filterMap_eq_nil_iff.2 fun _ _ => rfl

/-- Initial values are written without reports. -/
theorem Machine.reports_start (values : InitialValues) :
    Event.reports (Machine.start values).events = [] := by
  simp only [Machine.start]
  split
  case _ => exact Update.reports_notes _
  case _ =>
    split <;> simp only [Event.reports_append, Update.reports_notes, List.append_nil]

namespace Program

/-- Nothing is reported at the start. -/
theorem reports_start (settings : Settings) (disk : Disk) :
    Event.reports (start settings disk).events = [] := by
  have loaded : ∀ path, Event.reports (loadFile disk path).events = [] := by
    intro path
    unfold loadFile
    split
    case _ => rfl
    case _ =>
      split
      case _ => rfl
      case _ values _ => exact Machine.reports_start values
  unfold start
  cases settings.init? with
  | none => rfl
  | some path => exact loaded path

/-! ## Specification -/

/-- The list of all registers with their values, as it is printed. -/
def listing (layout : Layout) (m : Machine) : String :=
  Event.output layout
    [.report (.registers (Register.all.map fun r => (r.name, m.value r)))]

/-- How often lines of a session ask for a list of the registers. -/
def listRequests (options : Options) (input : Input) : Nat :=
  match options.source? with
  | some _ => 0
  | none => (Command.beforeQuit input.records).countP (Command.ofLine · = .list)

section Runs

variable (options : Options) (disk : Disk) (input : Input) (isInteractive : Bool)

/-- Whether the registers are listed at the end of a run: the run comes to a normal end, it is asked
to, and no interruption strikes before. -/
structure ListsAtEnd (interruption? : Option Nat) (m : Machine) (items : List Item) : Prop where
  /-- the run comes to a normal end -/
  ends : EndsNormally options disk input m items
  /-- the registers are to be listed -/
  asked : options.settings.dump = true
  /-- the list is the next thing to be seen when an interruption strikes, or has been seen -/
  late : ∀ n ∈ interruption?, (seen options.silent disk input isInteractive none).length ≤ n

end Runs

variable {options : Options} {disk : Disk} {input : Input} {isInteractive : Bool} {m : Machine}
  {items : List Item}

/-! ## What is reported -/

/-- A machine that is not started is in the way of all that comes after. -/
theorem exists_result_start_eq_error (hm : ∀ m, ¬Starts options.settings disk m) :
    ∃ v, (start options.settings disk).result = .error v := by
  by_cases hrejects : Rejects options.settings disk
  · obtain ⟨message, hresult⟩ := hrejects.result_start
    exact ⟨_, hresult⟩
  · obtain ⟨message?, hresult⟩ := result_start_of_not_starts hm hrejects
    exact ⟨_, hresult⟩

/-- Up to the end of a run nothing is reported but what is reported of the lines. -/
theorem reports_course_of_starts (hm : Starts options.settings disk m) (isInteractive : Bool) :
    Event.reports (course options disk input isInteractive).events =
      Event.reports (work options disk input isInteractive m).events := by
  rw [course_of_starts hm]
  simp only [Run.after, Event.reports_append, reports_start, List.nil_append]

/-- Nothing is reported if the machine is not started. -/
theorem reports_course_of_not_starts (hm : ∀ m, ¬Starts options.settings disk m) (input : Input)
    (isInteractive : Bool) :
    Event.reports (course options disk input isInteractive).events = [] := by
  obtain ⟨v, herror⟩ := exists_result_start_eq_error hm
  rw [(course_of_error herror input isInteractive).2, reports_start]

/-- Every table of the lines is drawn. -/
theorem draw_work (hm : m.HoldsWords) (layout : Layout) :
    ∀ report ∈ Event.reports (work options disk input isInteractive m).events,
      report.draw layout = .ok (report.render layout) := by
  have drawn : Machine.LinesReport fun report =>
      report.draw layout = .ok (report.render layout) :=
    fun _ item hm report hreport => (hm.isOfLine_runItem item report hreport).draw layout
  unfold work
  cases options.source? with
  | none =>
    exact hm.forall_reports_session drawn (·.draw_registers layout) rfl input isInteractive
  | some path =>
    simp only [runFile]
    cases disk.readText (FilePath.tidy path) with
    | error v => exact fun _ h => absurd h List.not_mem_nil
    | ok text => exact hm.forall_reports_runItems drawn (Item.ofSource (String.ofList text))

/-- Every table up to the end of a run is drawn. -/
theorem draw_course (options : Options) (disk : Disk) (input : Input) (isInteractive : Bool)
    (layout : Layout) :
    ∀ report ∈ Event.reports (course options disk input isInteractive).events,
      report.draw layout = .ok (report.render layout) := by
  by_cases hm : ∃ m, Starts options.settings disk m
  case pos =>
    obtain ⟨m, hm⟩ := hm
    rw [reports_course_of_starts hm]
    exact draw_work hm.holdsWords layout
  case neg =>
    rw [reports_course_of_not_starts (not_exists.1 hm) input isInteractive]
    exact fun _ h => absurd h List.not_mem_nil

theorem length_listings_work_le (hm : m.HoldsWords) :
    (Event.listings (work options disk input isInteractive m).events).length ≤
      listRequests options input := by
  unfold work listRequests
  cases options.source? with
  | none => exact hm.length_listings_session_le input isInteractive
  | some path =>
    simp only [runFile]
    cases disk.readText (FilePath.tidy path) with
    | error v => exact Nat.le_refl 0
    | ok text =>
      have unlisted := hm.listings_runItems (Item.ofSource (String.ofList text))
      exact Nat.le_of_eq (congrArg List.length unlisted)

/-- Up to the end of a run the registers are listed no more often than lines ask for it. -/
theorem length_listings_course_le (options : Options) (disk : Disk) (input : Input)
    (isInteractive : Bool) :
    (Event.listings (course options disk input isInteractive).events).length ≤
      listRequests options input := by
  by_cases hm : ∃ m, Starts options.settings disk m
  case pos =>
    obtain ⟨m, hm⟩ := hm
    rw [Event.listings, reports_course_of_starts hm]
    exact length_listings_work_le hm.holdsWords
  case neg =>
    rw [Event.listings, reports_course_of_not_starts (not_exists.1 hm) input isInteractive]
    exact Nat.zero_le _

/-! ## Interruptions -/

/-- An interruption leaves out some of the reports at most. -/
theorem reports_upTo_sublist (interruption? : Option Nat) (events : List Event) :
    (Event.reports (upTo interruption? events)).Sublist (Event.reports events) := by
  cases interruption? with
  | none => exact .refl _
  | some n => exact (List.take_sublist _ _).filterMap _

/-- An interruption may leave time for one event more. -/
theorem upTo_append_singleton {interruption? : Option Nat} {events : List Event}
    (h : ∀ n ∈ interruption?, events.length ≤ n) (event : Event) :
    upTo interruption? (events ++ [event]) = upTo interruption? events ++ [event] := by
  cases interruption? with
  | none => rfl
  | some n =>
    have late : events.length ≤ n := h n rfl
    rw [upTo, upTo, List.take_of_length_le (by simp; omega), List.take_of_length_le (by omega)]

theorem upTo_append_of_lt {n : Nat} {events : List Event} (h : n < events.length)
    (later : List Event) : upTo (some n) (events ++ later) = upTo (some n) events :=
  List.take_append_of_le_length h

/-! ## What is seen -/

/-- The option to list the registers at the end has no effect up to there. -/
theorem course_silent (options : Options) (disk : Disk) (input : Input) (isInteractive : Bool) :
    course options.silent disk input isInteractive = course options disk input isInteractive :=
  rfl

/-- A run whose course is ended by an error shows nothing after that. -/
theorem events_body_of_error {v : Verdict}
    (h : (course options disk input isInteractive).result = .error v) :
    (body options.settings disk (work options disk input isInteractive)).events =
      (course options disk input isInteractive).events := by
  change ((course options disk input isInteractive).andThen (finish options.settings)).events = _
  rw [Run.andThen_of_error h]

/-- A run whose course is not ended by an error lists the registers after that, if it is asked
to. -/
theorem events_body_of_ok {failures : Nat}
    (h : (course options disk input isInteractive).result = .ok failures) :
    (body options.settings disk (work options disk input isInteractive)).events =
      (course options disk input isInteractive).events ++
        if options.settings.dump then
          (course options disk input isInteractive).machine.listRegisters
        else [] := by
  change ((course options disk input isInteractive).andThen (finish options.settings)).events = _
  rw [Run.andThen_of_ok h]
  simp only [Run.after, finish, Run.done, List.append_nil]

/-- A run that does not come to a normal end is ended by an error. -/
theorem exists_result_course_eq_error (isInteractive : Bool)
    (h : ∀ m items, ¬EndsNormally options disk input m items) :
    ∃ v, (course options disk input isInteractive).result = .error v := by
  obtain ⟨code, hcode⟩ := exists_exits options disk input none
  rcases (hcode.exitCode_course isInteractive).2 with ⟨m, items, ends⟩ | herror
  · exact absurd ends (h m items)
  · exact herror

/-- Without the list at the end, what is seen of a run is what is seen of its course. -/
theorem seen_silent (options : Options) (disk : Disk) (input : Input) (isInteractive : Bool)
    (interruption? : Option Nat) :
    seen options.silent disk input isInteractive interruption? =
      upTo interruption? (course options disk input isInteractive).events := by
  rw [seen, ← course_silent]
  cases hresult : (course options.silent disk input isInteractive).result with
  | error v => rw [events_body_of_error hresult]
  | ok failures =>
    have unasked : options.silent.settings.dump = false := rfl
    rw [events_body_of_ok hresult, unasked]
    exact congrArg _ (List.append_nil _)

/-- The registers are listed after all else. -/
theorem ListsAtEnd.seen_eq {interruption? : Option Nat}
    (h : ListsAtEnd options disk input isInteractive interruption? m items) :
    seen options disk input isInteractive interruption? =
      seen options.silent disk input isInteractive interruption? ++
        (m.runItems items).machine.listRegisters := by
  have late := h.late
  rw [seen_silent] at late
  rw [seen_silent, seen, events_body_of_ok h.ends.course_eq.2, if_pos h.asked,
    h.ends.course_eq.1]
  exact upTo_append_singleton late _

/-- Where the registers are not listed at the end, asking for it makes no difference. -/
theorem seen_eq_of_not_listsAtEnd {interruption? : Option Nat}
    (h : ∀ m items, ¬ListsAtEnd options disk input isInteractive interruption? m items) :
    seen options disk input isInteractive interruption? =
      seen options.silent disk input isInteractive interruption? := by
  rw [seen_silent, seen]
  by_cases hends : ∃ m items, EndsNormally options disk input m items
  case neg =>
    obtain ⟨v, herror⟩ := exists_result_course_eq_error isInteractive fun m items ends =>
      hends ⟨m, items, ends⟩
    rw [events_body_of_error herror]
  case pos =>
    obtain ⟨m, items, ends⟩ := hends
    rw [events_body_of_ok ends.course_eq.2]
    by_cases hasked : options.settings.dump = true
    case neg =>
      rw [if_neg hasked, List.append_nil]
    case pos =>
      have early : ¬∀ n ∈ interruption?,
          (seen options.silent disk input isInteractive none).length ≤ n := fun late =>
        h m items ⟨ends, hasked, late⟩
      rw [seen_silent] at early
      simp only [not_forall, not_le] at early
      obtain ⟨n, rfl, hn⟩ := early
      exact upTo_append_of_lt hn _

/-- Every table of a run is drawn. -/
theorem draw_seen (options : Options) (disk : Disk) (input : Input) (isInteractive : Bool)
    (interruption? : Option Nat) (layout : Layout) :
    ∀ report ∈ Event.reports (seen options disk input isInteractive interruption?),
      report.draw layout = .ok (report.render layout) := by
  have drawn := draw_course options disk input isInteractive layout
  intro report hreport
  replace hreport := (reports_upTo_sublist _ _).subset hreport
  cases hresult : (course options disk input isInteractive).result with
  | error v =>
    rw [events_body_of_error hresult] at hreport
    exact drawn report hreport
  | ok failures =>
    rw [events_body_of_ok hresult, Event.reports_append] at hreport
    rcases List.mem_append.1 hreport with h | h
    · exact drawn report h
    · split at h
      case _ =>
        obtain rfl := List.mem_singleton.1 h
        exact Machine.draw_registers _ layout
      case _ => cases h

/-- Nothing is shown on the output if the machine is not started. -/
theorem reports_seen_of_not_starts (hm : ∀ m, ¬Starts options.settings disk m)
    (isInteractive : Bool) (interruption? : Option Nat) :
    Event.reports (seen options disk input isInteractive interruption?) = [] := by
  obtain ⟨v, herror⟩ := exists_result_start_eq_error hm
  have unended := (course_of_error herror input isInteractive).1
  refine List.sublist_nil.1 ?_
  rw [← reports_course_of_not_starts hm input isInteractive, ← events_body_of_error unended]
  exact reports_upTo_sublist _ _

/-- Without the list at the end, the registers are listed no more often than lines ask for it. -/
theorem length_listings_seen_silent_le (options : Options) (disk : Disk) (input : Input)
    (isInteractive : Bool) (interruption? : Option Nat) :
    (Event.listings (seen options.silent disk input isInteractive interruption?)).length ≤
      listRequests options input := by
  rw [seen_silent]
  refine Nat.le_trans ?_ (length_listings_course_le options disk input isInteractive)
  exact ((reports_upTo_sublist _ _).filterMap _).length_le

/-! ## What is printed -/

theorem output_transcript (options : Options) (disk : Disk) (input : Input) (isInteractive : Bool)
    (interruption? : Option Nat) :
    (transcript options disk input isInteractive interruption?).output =
      Event.output (Layout.ofName options.settings.tableFormat)
        (seen options disk input isInteractive interruption?) := by
  have unprinted : ∀ (layout : Layout) (events : List Event) (note : Note),
      Event.output layout (events ++ [.note note]) = Event.output layout events := by
    intro layout events note
    rw [Event.output_append]
    exact String.append_empty
  cases interruption? <;> exact unprinted _ _ _

/-- **The exit code tells what happened.** Take any run of the program, interrupted from outside or
not.

The exit code is the one that stands for how the run ends, and all tables of the run are drawn. If
the machine cannot be started, nothing is printed. If the registers are to be listed at the end and
the run comes to a normal end with no interruption before, the list of all registers with their
final values is the last thing that is printed, after what is printed without it; otherwise what is
printed is just what is printed without it. In that the registers are listed no more often than
lines of a session ask for it. -/
theorem exitCode_and_output_transcript (options : Options) (disk : Disk) (input : Input)
    (isInteractive : Bool) (interruption? : Option Nat) :
    let t := transcript options disk input isInteractive interruption?
    let silent := transcript options.silent disk input isInteractive interruption?
    let layout := Layout.ofName options.settings.tableFormat
    (∀ code, t.exitCode = code ↔ Exits options disk input interruption? code) ∧
      (∀ report ∈ Event.reports (seen options disk input isInteractive interruption?),
        report.draw layout = .ok (report.render layout)) ∧
      ((∀ m, ¬Starts options.settings disk m) → t.output = "") ∧
      (∀ m items, ListsAtEnd options disk input isInteractive interruption? m items →
        t.output = silent.output ++ listing layout (m.runItems items).machine) ∧
      ((∀ m items, ¬ListsAtEnd options disk input isInteractive interruption? m items) →
        t.output = silent.output) ∧
      (Event.listings (seen options.silent disk input isInteractive interruption?)).length ≤
        listRequests options input := by
  intro t silent layout
  have output : t.output =
      Event.output layout (seen options disk input isInteractive interruption?) :=
    output_transcript ..
  have silent_output : silent.output =
      Event.output layout (seen options.silent disk input isInteractive interruption?) :=
    output_transcript ..
  refine ⟨exitCode_transcript_iff _ _ _ _ _, draw_seen _ _ _ _ _ layout, ?_, ?_, ?_,
    length_listings_seen_silent_le _ _ _ _ _⟩
  · intro hm
    rw [output, Event.output, reports_seen_of_not_starts hm]
    rfl
  · intro m items hlists
    rw [output, silent_output, hlists.seen_eq, Event.output_append, listing, ← Machine.toList_eq]
    rfl
  · intro hlists
    rw [output, silent_output, seen_eq_of_not_listsAtEnd hlists]

/-- Two runs that are to list the registers at the end: a session with an instruction and a line
that cannot be read, and one whose initial values are rejected. -/
theorem exitCode_and_output_transcript_rejected :
    let options : Options := { patch := { dump? := some true } }
    let rejecting : Options := { patch := { dump? := some true, init? := some "start" } }
    let disk : Disk := fun _ => .ok "[registers]\n\"$t0\" = true\n".toUTF8.toList
    let input := Input.ofText "addi $8,$0,7\n8 oops\n"
    let items : List Item := [.statement ⟨1, "addi", "$8,$0,7"⟩, .malformed ⟨2, "8 oops"⟩]
    let finished := transcript options disk input false none
    let rejected := transcript rejecting disk input false none
    ListsAtEnd options disk input false none .zero items ∧
      finished.exitCode = 2 ∧
      finished.output = (transcript options.silent disk input false none).output ++
        listing (Layout.ofName "grid") (Machine.zero.runItems items).machine ∧
      (∀ m, ¬Starts rejecting.settings disk m) ∧
      rejected.exitCode = 2 ∧
      rejected.output = "" ∧
      rejected.output = (transcript rejecting.silent disk input false none).output := by
  intro options rejecting disk input items finished rejected
  have lists : ListsAtEnd options disk input false none .zero items := by
    refine ⟨⟨.zero rfl, ?_, ?_, ?_⟩, rfl, fun _ h => nomatch h⟩
    · decide +kernel
    · decide +kernel
    · decide +kernel
  have unaccepted : (start rejecting.settings disk).result = .error
      (.halted "Initial value of $t0 must be an integer, got True") := by
    decide +kernel
  have unstarted : ∀ m, ¬Starts rejecting.settings disk m := fun m hm =>
    nomatch hm.result_start.2.symm.trans unaccepted
  have unlisted : ∀ m items, ¬ListsAtEnd rejecting disk input false none m items :=
    fun m _ h => unstarted m h.ends.starts
  obtain ⟨codes, -, -, listed, -⟩ := exitCode_and_output_transcript options disk input false none
  obtain ⟨-, -, unprinted, -, same, -⟩ :=
    exitCode_and_output_transcript rejecting disk input false none
  refine ⟨lists, (codes 2).2 (.failing lists.ends ?_), listed _ _ lists, unstarted, ?_,
    unprinted unstarted, same unlisted⟩
  · decide +kernel
  · decide +kernel

/-- The list of the registers can be the last thing that is printed by a run that is interrupted: in
answer to a line that asks for it, or where the interruption strikes after the end. -/
theorem listing_of_interrupted :
    let options : Options := { patch := { dump? := some true } }
    let disk : Disk := fun _ => .error .missing
    let input := (Input.ofText "regs\n").interruptAfter 1
    let asked := run options disk input false
    let late := transcript options disk (.ofText "") false (some 1)
    asked.exitCode = 3 ∧ asked.output = listing .grid .zero ∧
      (∀ m items, ¬EndsNormally options disk input m items) ∧
      late.exitCode = 3 ∧ late.output = listing .grid .zero := by
  intro options disk input asked late
  have breaks : BreaksOff options input := by decide
  have asked_reports : Event.reports (seen options disk input false none) =
      [.registers Machine.zero.toList] := by decide +kernel
  have late_reports : Event.reports (seen options disk (.ofText "") false (some 1)) =
      [.registers Machine.zero.toList] := by decide +kernel
  have printed : ∀ events, Event.reports events = [.registers Machine.zero.toList] →
      Event.output (Layout.ofName options.settings.tableFormat) events = listing .grid .zero := by
    intro events hevents
    rw [Event.output, hevents, listing, ← Machine.toList_eq]
    rfl
  refine ⟨by decide +kernel, ?_, fun m items ends => ends.unbroken breaks, rfl, ?_⟩
  · exact (output_transcript options disk input false none).trans (printed _ asked_reports)
  · exact (output_transcript options disk _ false (some 1)).trans (printed _ late_reports)

end Program

end TinyMips
