import TinyMips.Proofs.LineFeed
import TinyMips.Proofs.Reachable
import TinyMips.Proofs.Records

/-!
# Sessions and programs

A session does what the program does that is entered in it. The main statement is that a session
which nobody attends reports what the program made of its lines up to the first `quit` reports, and
comes to the same end with the same registers, and that an attended one adds a prompt before each
line it reads (`Machine.session_execute`). What follows the `quit` is never looked at, and the log
alone may differ.
-/

namespace TinyMips

/-! ## Runs that differ in their notes -/

/-- Two runs that differ in their notes at most. -/
structure Run.Agrees {ε α : Type} (a b : Run ε α) : Prop where
  /-- they leave the same machine -/
  machine : a.machine = b.machine
  /-- they report the same -/
  reports : Event.reports a.events = Event.reports b.events
  /-- they answer the same -/
  result : a.result = b.result

namespace Run.Agrees

variable {ε α β : Type} {a b : Run ε α}

theorem refl (a : Run ε α) : a.Agrees a :=
  ⟨rfl, rfl, rfl⟩

/-- Notes that come before a run make no difference. -/
theorem after_note (a : Run ε α) (note : Note) : a.Agrees (a.after [.note note]) :=
  ⟨rfl, rfl, rfl⟩

theorem map (h : a.Agrees b) (f : α → β) : (a.map f).Agrees (b.map f) :=
  ⟨h.machine, h.reports, congrArg (Except.map f) h.result⟩

theorem after (h : a.Agrees b) (events : List Event) :
    (a.after events).Agrees (b.after events) := by
  refine ⟨h.machine, ?_, h.result⟩
  simp only [Run.after, Event.reports_append, h.reports]

theorem andThen (h : a.Agrees b) {f g : Machine → α → Run ε β}
    (hnext : ∀ m x, (f m x).Agrees (g m x)) : (a.andThen f).Agrees (b.andThen g) := by
  cases hb : b.result with
  | error e =>
    rw [andThen_of_error (h.result.trans hb), andThen_of_error hb]
    exact ⟨h.machine, h.reports, rfl⟩
  | ok x =>
    rw [andThen_of_ok (h.result.trans hb), andThen_of_ok hb, h.machine]
    have next := hnext b.machine x
    refine ⟨next.machine, ?_, next.result⟩
    simp only [Run.after, Event.reports_append, h.reports, next.reports]

/-- Runs that differ in their notes show the same on the output. -/
theorem output (h : a.Agrees b) (layout : Layout) :
    Event.output layout a.events = Event.output layout b.events := by
  rw [Event.output, h.reports, Event.output]

end Run.Agrees

/-! ## The lines of a session -/

/-- The records before the first that ends the session. -/
def Command.beforeQuit (records : List (List Char)) : List (List Char) :=
  records.takeWhile fun text => Command.ofLine text ≠ .quit

/-- The program that a text enters: its lines up to the first that ends the session. -/
def Command.program (text : String) : String :=
  String.ofList (beforeQuit (Text.records text.toList)).flatten

theorem Command.records_program (text : String) :
    Text.records (program text).toList = beforeQuit (Text.records text.toList) := by
  rw [program, String.toList_ofList]
  exact Text.records_flatten_takeWhile _ _

namespace Machine

/-- What is reported after each reading of a line, the reading that ends the session included. -/
def replies (m : Machine) (line : Int) : List (List Char) → List (List Report)
  | [] => [[]]
  | text :: rest =>
    match m.answer? line text with
    | none => [[]]
    | some run =>
      Event.reports run.events ::
        match run.result with
        | .ok _ => replies run.machine (line + 1) rest
        | .error _ => []

theorem answer?_eq_none_iff {m : Machine} {line : Int} {text : List Char} :
    m.answer? line text = none ↔ Command.ofLine text = .quit := by
  rw [answer?]
  split <;> simp [*]

/-- What comes after the end of a session has no effect on it. -/
theorem sessionFrom_beforeQuit (m : Machine) (isInteractive : Bool) (line : Int)
    (records : List (List Char)) :
    m.sessionFrom isInteractive .exhausted line (Command.beforeQuit records) =
      m.sessionFrom isInteractive .exhausted line records := by
  induction records generalizing m line with
  | nil => rfl
  | cons text rest ih =>
    by_cases hquit : Command.ofLine text = .quit
    · have stops : Command.beforeQuit (text :: rest) = [] :=
        List.takeWhile_cons_of_neg (by simp [hquit])
      -- A `quit` and the end of the input are answered alike.
      rw [stops, sessionFrom, sessionFrom, answer?, hquit]
    · have goesOn : Command.beforeQuit (text :: rest) = text :: Command.beforeQuit rest :=
        List.takeWhile_cons_of_pos (by simp [hquit])
      rw [goesOn, sessionFrom, sessionFrom]
      simp only [ih]

/-- Whether a session is attended makes no difference to what it does. -/
theorem sessionFrom_machine_result (m : Machine) (ending : Ending) (line : Int)
    (records : List (List Char)) :
    (m.sessionFrom true ending line records).machine =
        (m.sessionFrom false ending line records).machine ∧
      (m.sessionFrom true ending line records).result =
        (m.sessionFrom false ending line records).result := by
  induction records generalizing m line with
  | nil => cases ending <;> exact ⟨rfl, rfl⟩
  | cons text rest ih =>
    simp only [sessionFrom, Run.after]
    cases m.answer? line text with
    | none => exact ⟨rfl, rfl⟩
    | some run =>
      cases h : run.result with
      | error e =>
        simp only [Run.andThen_of_error h, and_self]
      | ok failures =>
        obtain ⟨machine, result⟩ := ih run.machine (line + 1)
        simp only [Run.andThen_of_ok h]
        exact ⟨machine, congrArg (Except.map (failures + ·)) result⟩

/-- A session reports its replies, with what is shown before a line is read in front of each. -/
theorem reports_sessionFrom (m : Machine) (isInteractive : Bool) (ending : Ending) (line : Int)
    (records : List (List Char)) :
    Event.reports (m.sessionFrom isInteractive ending line records).events =
      (m.replies line records).flatMap
        fun reply => Event.reports (invitation isInteractive) ++ reply := by
  induction records generalizing m line with
  | nil =>
    -- The reading that meets the end is invited like the others, however the input ends.
    cases ending <;> simp [sessionFrom, replies, Run.after, Run.done, Event.reports]
  | cons text rest ih =>
    rw [sessionFrom, replies]
    simp only [Run.after, Event.reports_append]
    cases m.answer? line text with
    | none => simp [Run.done, Event.reports]
    | some run =>
      cases h : run.result with
      | error e => simp [Run.andThen_of_error h, h]
      | ok failures => simp [Run.andThen_of_ok h, Run.after, Run.map, ih, h]

/-- A session that is not ended by an error reads each line up to the one that ends it, and then
once more. -/
theorem length_replies {m : Machine} {isInteractive : Bool} {line : Int}
    {records : List (List Char)} {failures : Nat}
    (h : (m.sessionFrom isInteractive .exhausted line records).result = .ok failures) :
    (m.replies line records).length = (Command.beforeQuit records).length + 1 := by
  induction records generalizing m line failures with
  | nil => rfl
  | cons text rest ih =>
    rw [sessionFrom] at h
    rw [replies]
    cases hanswer : m.answer? line text with
    | none =>
      rw [Command.beforeQuit, List.takeWhile_cons_of_neg]
      · rfl
      · simpa using answer?_eq_none_iff.1 hanswer
    | some run =>
      have goesOn : Command.ofLine text ≠ .quit := fun hquit => by
        rw [answer?_eq_none_iff.2 hquit] at hanswer
        cases hanswer
      rw [hanswer] at h
      obtain ⟨first, hfirst, hrest⟩ := Run.result_andThen_eq_ok.1 h
      obtain ⟨later, hlater, -⟩ := Run.result_map_eq_ok.1 hrest
      rw [Command.beforeQuit, List.takeWhile_cons_of_pos (by simpa using goesOn)]
      simp only [hfirst, List.length_cons, ih hlater]
      rfl

/-! ## The program of a session -/

theorem runItems_singleton (m : Machine) (item : Item) : m.runItems [item] = m.runItem item :=
  Run.andThen_done (m.runItem item)

/-- A line that is entered is run like a line of a program. -/
theorem runLine_agrees (m : Machine) (line : Int) (text : List Char) :
    (m.runLine line text).Agrees (m.runItems (Item.ofLine? line text).toList) := by
  unfold runLine Item.ofLine?
  cases Statement.ofLine? line text with
  | error malformed =>
    rw [Option.toList_some, runItems_singleton]
    exact .after_note _ _
  | ok s? =>
    cases s? with
    | none => exact .refl _
    | some s =>
      rw [Option.toList_some, runItems_singleton]
      exact .refl _

/-- Entered lines that ask for no command are run like the lines of a program. -/
theorem sessionFrom_agrees (m : Machine) (line : Int) {records : List (List Char)}
    (hrun : ∀ record ∈ records, Command.ofLine record = .run)
    (hrecord : ∀ record ∈ records,
      record = Text.chomp record ∨ record = Text.chomp record ++ ['\n']) :
    (m.sessionFrom false .exhausted line records).Agrees
      (m.runItems (Item.ofLines line (records.map Text.chomp))) := by
  induction records generalizing m line with
  | nil => exact .refl _
  | cons record rest ih =>
    obtain ⟨hrun, hrest⟩ := List.forall_mem_cons.1 hrun
    obtain ⟨hrecord, hrecords⟩ := List.forall_mem_cons.1 hrecord
    -- The session numbers the record and reads it with its line feed; the program numbers the same
    -- line and reads it without.
    have runs : m.answer? line record = some (m.runLine line (Text.chomp record)) := by
      have same : Statement.ofLine? line record = Statement.ofLine? line (Text.chomp record) := by
        rcases hrecord with h | h
        · rw [← h]
        · rw [h, Statement.ofLine?_append_feed line (Text.feed_notMem_chomp record), ← h]
      rw [answer?, hrun, runLine, runLine, same]
    rw [sessionFrom, runs, List.map_cons, Item.ofLines, runItems_append]
    exact (runLine_agrees m line _).andThen fun m failures =>
      (ih m (line + 1) hrest hrecords).map (failures + ·)

/-- **Sessions run programs.** Let a text have no line break but line feeds and no `regs` in its
lines before the first `quit` or `exit`. An unattended session on it ends as the program of these
lines does, with the same answer or error, the same output and the same machine. The lines from the
`quit` on have no effect. An attended session differs in one prompt before each line that it reads,
and where no error ends it, it has read all lines before the `quit` and one more time. -/
theorem session_execute (m : Machine) (text : String)
    (hbreaks : Text.BreaksAtFeeds (Command.program text).toList)
    (hlist : ∀ record ∈ Command.beforeQuit (Text.records text.toList),
      Command.ofLine record ≠ .list) :
    let run := m.execute (Command.program text)
    let unattended := m.session (.ofText text) false
    let attended := m.session (.ofText text) true
    let replies := m.replies 1 (Text.records text.toList)
    unattended.Agrees run ∧
      (∀ layout, Event.output layout unattended.events = Event.output layout run.events) ∧
      (∀ isInteractive, m.session (.ofText text) isInteractive =
        m.session (.ofText (Command.program text)) isInteractive) ∧
      attended.machine = unattended.machine ∧
      attended.result = unattended.result ∧
      Event.reports unattended.events = replies.flatten ∧
      Event.reports attended.events = replies.flatMap (.prompt :: ·) ∧
      (∀ failures, unattended.result = .ok failures →
        replies.length = (Command.beforeQuit (Text.records text.toList)).length + 1) := by
  have isRun : ∀ record ∈ Command.beforeQuit (Text.records text.toList),
      Command.ofLine record = .run := by
    intro record hmem
    have hquit : Command.ofLine record ≠ .quit := by simpa using List.mem_takeWhile_imp hmem
    cases h : Command.ofLine record with
    | quit => exact absurd h hquit
    | list => exact absurd h (hlist record hmem)
    | run => rfl
  have isRecord : ∀ record ∈ Command.beforeQuit (Text.records text.toList),
      record = Text.chomp record ∨ record = Text.chomp record ++ ['\n'] := fun record hmem =>
    Text.eq_chomp_or_of_mem_records ((List.takeWhile_sublist _).subset hmem)
  have agrees : (m.session (.ofText text) false).Agrees (m.execute (Command.program text)) := by
    rw [execute, Item.ofSource, Text.lines_eq_map_chomp hbreaks, Command.records_program]
    have h := sessionFrom_agrees m 1 isRun isRecord
    rw [sessionFrom_beforeQuit] at h
    exact h
  have before : ∀ isInteractive, m.session (.ofText text) isInteractive =
      m.session (.ofText (Command.program text)) isInteractive := by
    intro isInteractive
    simp only [session, Input.ofText, Command.records_program]
    exact (sessionFrom_beforeQuit m isInteractive 1 _).symm
  obtain ⟨machine, result⟩ := sessionFrom_machine_result m .exhausted 1 (Text.records text.toList)
  refine ⟨agrees, agrees.output, before, machine, result, ?_, ?_, fun failures h =>
    length_replies h⟩
  · exact (reports_sessionFrom m false .exhausted 1 _).trans List.flatMap_id'
  · exact reports_sessionFrom m true .exhausted 1 _

/-- A session of a statement and a line that cannot be read, with a command after its end. -/
theorem session_execute_malformed_line :
    let text := "addi $8,$0,7\n8 oops\nquit\nregs\n"
    Text.BreaksAtFeeds (Command.program text).toList ∧
      (∀ record ∈ Command.beforeQuit (Text.records text.toList),
        Command.ofLine record ≠ .list) ∧
      (zero.session (.ofText text) false).Agrees (zero.execute (Command.program text)) ∧
      (zero.execute (Command.program text)).result = .ok 1 := by
  have breaks : (Command.program "addi $8,$0,7\n8 oops\nquit\nregs\n").toList.all
      (fun c => !Text.isLineBreak c || c = '\n') = true := by decide
  have hbreaks : Text.BreaksAtFeeds
      (Command.program "addi $8,$0,7\n8 oops\nquit\nregs\n").toList := by
    intro c hc hbreak
    have hc := List.all_eq_true.1 breaks c hc
    rw [hbreak] at hc
    exact of_decide_eq_true hc
  have runs : (Command.beforeQuit
      (Text.records "addi $8,$0,7\n8 oops\nquit\nregs\n".toList)).all
      (fun record => Command.ofLine record ≠ .list) = true := by decide
  have hlist : ∀ record ∈ Command.beforeQuit
      (Text.records "addi $8,$0,7\n8 oops\nquit\nregs\n".toList),
      Command.ofLine record ≠ .list := fun record hrecord =>
    of_decide_eq_true (List.all_eq_true.1 runs record hrecord)
  exact ⟨hbreaks, hlist, (session_execute zero _ hbreaks hlist).1, rfl⟩

end Machine

end TinyMips
