import TinyMips.Proofs.FinalListing

/-!
# Interrupted sessions

A session that is interrupted has done exactly the lines it has read. Either it has come to its end
within these lines (`Program.EndsWithin`), and then the interruption comes too late to be noticed;
or it has shown what a session on these lines alone shows, whatever would have followed. The
statement about runs of the program is `Program.run_interruptAfter`. It rests on two inductions over
the lines that are read: one for sessions that have ended (`Machine.sessionFrom_append`), and one
for what a session has shown (`Machine.reports_sessionFrom_isPrefix`).
-/

namespace TinyMips

/-! ## The first lines of a text -/

namespace Text

/-- The first `n` lines of a text, with their line breaks. A line ends at a line feed, at a carriage
return, or at a pair of the two. -/
def takeLines : Nat → List Char → List Char
  | 0, _ => []
  | _ + 1, [] => []
  | n + 1, '\r' :: '\n' :: rest => '\r' :: '\n' :: takeLines n rest
  | n + 1, c :: rest =>
    if c = '\r' ∨ c = '\n' then c :: takeLines n rest else c :: takeLines (n + 1) rest

theorem takeLines_isPrefix (n : Nat) (s : List Char) : takeLines n s <+: s := by
  induction n, s using takeLines.induct with
  | case1 s =>
    rw [takeLines]
    exact List.nil_prefix
  | case2 n => exact List.nil_prefix
  | case3 n rest ih =>
    exact List.cons_prefix_cons.2 ⟨rfl, List.cons_prefix_cons.2 ⟨rfl, ih⟩⟩
  | case4 n c rest hpair hbreak ih =>
    rw [takeLines.eq_4 _ _ _ hpair, if_pos hbreak]
    exact List.cons_prefix_cons.2 ⟨rfl, ih⟩
  | case5 n c rest hpair hbreak ih =>
    rw [takeLines.eq_4 _ _ _ hpair, if_neg hbreak]
    exact List.cons_prefix_cons.2 ⟨rfl, ih⟩

theorem unifyBreaks_cons {c : Char} {rest : List Char}
    (h : ∀ later, c = '\r' → rest = '\n' :: later → False) :
    unifyBreaks (c :: rest) = (if c = '\r' then '\n' else c) :: unifyBreaks rest :=
  unifyBreaks.eq_3 c rest h

/-- Where no pair of a carriage return and a line feed begins, none begins in what is left of the
text. -/
theorem not_pair_of_isPrefix {c : Char} {a b : List Char} (hab : a <+: b)
    (h : ∀ later, c = '\r' → b = '\n' :: later → False) :
    ∀ later, c = '\r' → a = '\n' :: later → False := by
  rintro later hc rfl
  obtain ⟨rest, rfl⟩ := hab
  exact h (later ++ rest) hc rfl

/-- The first lines of a text are read as its first records. -/
theorem records_takeLines (n : Nat) (s : List Char) :
    records (unifyBreaks (takeLines n s)) = (records (unifyBreaks s)).take n := by
  induction n, s using takeLines.induct with
  | case1 s => simp [takeLines, unifyBreaks, records]
  | case2 n => simp [takeLines, unifyBreaks, records]
  | case3 n rest ih => simp [takeLines, unifyBreaks, records, ih]
  | case4 n c rest hpair hbreak ih =>
    have kept := not_pair_of_isPrefix (takeLines_isPrefix n rest) hpair
    have feed : (if c = '\r' then '\n' else c) = '\n' := by
      rcases hbreak with rfl | rfl <;> rfl
    rw [takeLines.eq_4 _ _ _ hpair, if_pos hbreak, unifyBreaks_cons kept, unifyBreaks_cons hpair,
      feed, records, records, if_pos rfl, if_pos rfl, List.take_succ_cons, ih]
  | case5 n c rest hpair hbreak ih =>
    -- The character belongs to the first of the records that are taken.
    have kept := not_pair_of_isPrefix (takeLines_isPrefix (n + 1) rest) hpair
    obtain ⟨hreturn, hfeed⟩ := not_or.1 hbreak
    rw [takeLines.eq_4 _ _ _ hpair, if_neg hbreak, unifyBreaks_cons kept, unifyBreaks_cons hpair,
      if_neg hreturn, records, records, if_neg hfeed, if_neg hfeed, take_consLine, ih]

end Text

theorem Input.records_ofStream (text : String) :
    (Input.ofStream text).records = Text.records (Text.unifyBreaks text.toList) := by
  rw [ofStream, ofText, String.toList_ofList]

/-- The first lines of a stream are its first records. -/
theorem Input.records_ofStream_takeLines (n : Nat) (text : String) :
    (Input.ofStream (String.ofList (Text.takeLines n text.toList))).records =
      (Input.ofStream text).records.take n := by
  rw [records_ofStream, records_ofStream, String.toList_ofList, Text.records_takeLines]

/-! ## What an interruption leaves of an input -/

namespace Input

variable {input : Input} {n : Nat}

theorem interruptAfter_of_le (h : n ≤ input.records.length) :
    input.interruptAfter n = { records := input.records.take n, ending := .interrupted } :=
  if_pos h

theorem interruptAfter_of_lt (h : input.records.length < n) : input.interruptAfter n = input :=
  if_neg (Nat.not_le.2 h)

/-- Streams that have the same first lines are the same when they are interrupted after these. -/
theorem interruptAfter_congr {a b : String}
    (h : (ofStream a).records.take n = (ofStream b).records.take n) :
    (ofStream a).interruptAfter n = (ofStream b).interruptAfter n := by
  have lengths := congrArg List.length h
  simp only [List.length_take] at lengths
  by_cases ha : n ≤ (ofStream a).records.length
  · rw [interruptAfter_of_le ha, interruptAfter_of_le (by omega), h]
  · -- Neither stream has more than its first lines, so they have the same lines.
    rw [interruptAfter_of_lt (by omega), interruptAfter_of_lt (by omega)]
    rw [List.take_of_length_le (by omega), List.take_of_length_le (by omega)] at h
    exact congrArg (fun records => Input.mk records .exhausted) h

end Input

/-! ## Sessions on more lines -/

namespace Machine

/-- A session that ends before its input is interrupted does so whatever comes after. -/
theorem sessionFrom_append {m : Machine} {isInteractive : Bool} {line : Int}
    {first : List (List Char)}
    (h : (m.sessionFrom isInteractive .interrupted line first).result ≠ .error .interrupted)
    (ending : Ending) (later : List (List Char)) :
    m.sessionFrom isInteractive ending line (first ++ later) =
      m.sessionFrom isInteractive .interrupted line first := by
  induction first generalizing m line with
  | nil => exact absurd rfl h
  | cons text rest ih =>
    rw [sessionFrom] at h
    rw [List.cons_append, sessionFrom, sessionFrom]
    cases hanswer : m.answer? line text with
    | none => rfl
    | some run =>
      simp only [hanswer] at h
      cases hresult : run.result with
      | error halt => simp only [Run.andThen_of_error hresult]
      | ok failures =>
        have goesOn : (run.machine.sessionFrom isInteractive .interrupted (line + 1) rest).result ≠
            .error .interrupted := by
          intro hrest
          refine h ?_
          simp only [Run.andThen_of_ok hresult, Run.after, Run.map, hrest]
          rfl
        simp only [Run.andThen_of_ok hresult, ih goesOn]

/-- How its input ends makes no difference to what a session reports. -/
theorem reports_sessionFrom_congr (m : Machine) (isInteractive : Bool) (ending ending' : Ending)
    (line : Int) (records : List (List Char)) :
    Event.reports (m.sessionFrom isInteractive ending line records).events =
      Event.reports (m.sessionFrom isInteractive ending' line records).events := by
  rw [reports_sessionFrom, reports_sessionFrom]

/-- Every session begins with what is shown before a line is read. -/
theorem invitation_isPrefix (m : Machine) (isInteractive : Bool) (ending : Ending) (line : Int)
    (records : List (List Char)) :
    Event.reports (invitation isInteractive) <+:
      Event.reports (m.sessionFrom isInteractive ending line records).events := by
  cases records with
  | nil => cases ending <;> simp [sessionFrom, Run.after]
  | cons text rest => simp [sessionFrom, Run.after]

/-- What a session has reported stays if more lines follow. -/
theorem reports_sessionFrom_isPrefix (m : Machine) (isInteractive : Bool) (ending ending' : Ending)
    (line : Int) (first later : List (List Char)) :
    Event.reports (m.sessionFrom isInteractive ending line first).events <+:
      Event.reports (m.sessionFrom isInteractive ending' line (first ++ later)).events := by
  induction first generalizing m line with
  | nil =>
    rw [reports_sessionFrom, replies, List.flatMap_singleton, List.append_nil]
    exact invitation_isPrefix m isInteractive ending' line later
  | cons text rest ih =>
    rw [List.cons_append, sessionFrom, sessionFrom]
    simp only [Run.after, Event.reports_append, List.prefix_append_right_inj]
    cases m.answer? line text with
    | none => exact List.prefix_rfl
    | some run =>
      cases hresult : run.result with
      | error halt => simp only [Run.andThen_of_error hresult, List.prefix_rfl]
      | ok failures =>
        simp only [Run.andThen_of_ok hresult, Run.after, Run.map, Event.reports_append,
          List.prefix_append_right_inj]
        exact ih run.machine (line + 1)

end Machine

/-- What is reported first is printed first. -/
theorem Event.output_isPrefix {a b : List Event} (h : reports a <+: reports b) (layout : Layout) :
    (output layout a).toList <+: (output layout b).toList := by
  obtain ⟨later, h⟩ := h
  rw [output, output, String.toList_ofList, String.toList_ofList, ← h, List.flatMap_append]
  exact List.prefix_append _ _

/-! ## Interrupted runs -/

namespace Program

/-- Whether a session on lines has come to its end when it would read the line after the first `n`
of them. -/
inductive EndsWithin (m : Machine) (records : List (List Char)) (n : Nat) : Prop
  /-- one of the lines ends the session -/
  | quit {text : List Char} (htext : text ∈ records.take n) (hquit : Command.ofLine text = .quit)
  /-- the end of the input has been read -/
  | exhausted (hlength : records.length < n)
  /-- one of the lines ends the run -/
  | halted (hhalted : ∃ stage ∈ m.stages (Item.ofRecords 1 (records.take n)),
      ∃ halt, stage.fate = .halted halt)

variable {options : Options} {disk : Disk} {m : Machine}

theorem work_of_session (hsource : options.source? = none) (disk : Disk) (input : Input)
    (isInteractive : Bool) :
    work options disk input isInteractive = runInput input isInteractive := by
  rw [work, hsource]

theorem items?_of_session (hsource : options.source? = none) (disk : Disk) (input : Input) :
    items? options disk input = some (Item.ofRecords 1 input.records) := by
  rw [items?, hsource]

/-- What a run reports of a session up to the end of it. -/
theorem reports_course_of_session (hsource : options.source? = none)
    (hm : Starts options.settings disk m) (input : Input) (isInteractive : Bool) :
    Event.reports (course options disk input isInteractive).events =
      Event.reports (m.session input isInteractive).events := by
  rw [reports_course_of_starts hm, work_of_session hsource]
  rfl

/-- Sessions that are the same make runs that are the same. -/
theorem run_congr (hsource : options.source? = none) (hm : Starts options.settings disk m)
    {a b : Input} {isInteractive : Bool}
    (h : m.session a isInteractive = m.session b isInteractive) :
    run options disk a isInteractive = run options disk b isInteractive := by
  have same : course options disk a isInteractive = course options disk b isInteractive := by
    rw [course_of_starts hm, course_of_starts hm, work_of_session hsource, work_of_session hsource,
      runInput, runInput, h]
  have eq_of : ∀ input, run options disk input isInteractive =
      .of options.settings
        ((course options disk input isInteractive).andThen (finish options.settings)).events
        (verdict ((course options disk input isInteractive).andThen (finish options.settings))) :=
    fun _ => rfl
  rw [eq_of, eq_of, same]

/-- Lines do not interrupt a run. -/
theorem result_runItems_ne_interrupted (m : Machine) (items : List Item) :
    (m.runItems items).result ≠ .error .interrupted := by
  intro hresult
  obtain ⟨stage, hstage, hfate⟩ := Machine.exists_halted_of_result_eq_error hresult
  obtain ⟨e, he⟩ := result_runItems_of_halted ⟨stage, hstage, _, hfate⟩
  rw [hresult] at he
  cases he

section EndsWithin

variable {input : Input} {n : Nat} {isInteractive : Bool}

/-- A session that has come to its end does not notice that its input is interrupted. -/
theorem EndsWithin.session_interruptAfter (h : EndsWithin m input.records n) :
    m.session (input.interruptAfter n) isInteractive = m.session input isInteractive := by
  by_cases hn : n ≤ input.records.length
  case neg => rw [Input.interruptAfter_of_lt (Nat.lt_of_not_le hn)]
  case pos =>
    have result := m.result_session { records := input.records.take n, ending := .interrupted }
      isInteractive
    have ended : (m.sessionFrom isInteractive .interrupted 1 (input.records.take n)).result ≠
        .error .interrupted := by
      intro hinterrupted
      replace result := result.symm.trans hinterrupted
      cases h with
      | quit htext hquit =>
        have unbroken : ¬Input.BreaksOff
            { records := input.records.take n, ending := .interrupted } := fun hbreaks =>
          hbreaks.2 _ htext hquit
        simp only [unbroken, ↓reduceIte] at result
        exact result_runItems_ne_interrupted _ _ ((bind_pure _).symm.trans result)
      | exhausted hlength => omega
      | halted hhalted =>
        obtain ⟨e, he⟩ := result_runItems_of_halted hhalted
        rw [he] at result
        cases result
    rw [Input.interruptAfter_of_le hn]
    have whole := Machine.sessionFrom_append ended input.ending (input.records.drop n)
    rw [List.take_append_drop] at whole
    exact whole.symm

/-- A session that has not come to its end has read its lines and answered all of them. -/
theorem of_not_endsWithin (h : ¬EndsWithin m input.records n) :
    n ≤ input.records.length ∧
      (∀ text ∈ input.records.take n, Command.ofLine text ≠ .quit) ∧
      ∀ stage ∈ m.stages (Item.ofRecords 1 (input.records.take n)), stage.fate.isAnswered := by
  refine ⟨Nat.le_of_not_lt fun hlength => h (.exhausted hlength),
    fun text htext hquit => h (.quit htext hquit), fun stage hstage => ?_⟩
  by_contra hfate
  exact h (.halted ⟨stage, hstage, Fate.exists_eq_halted hfate⟩)

/-- An interruption that comes before the end of a session gives the run its exit code. -/
theorem exits_interruptAfter (hsource : options.source? = none)
    (hm : Starts options.settings disk m) (h : ¬EndsWithin m input.records n) :
    BreaksOff options (input.interruptAfter n) ∧
      Exits options disk (input.interruptAfter n) none 3 := by
  obtain ⟨hn, unended, answered⟩ := of_not_endsWithin h
  rw [Input.interruptAfter_of_le hn]
  have breaks : BreaksOff options { records := input.records.take n, ending := .interrupted } :=
    ⟨hsource, rfl, unended⟩
  exact ⟨breaks, .brokenOff hm (items?_of_session hsource _ _) answered breaks⟩

end EndsWithin

/-! ## The output of interrupted runs -/

section Output

variable {input : Input} {isInteractive : Bool}

theorem output_run (options : Options) (disk : Disk) (input : Input) (isInteractive : Bool) :
    (run options disk input isInteractive).output =
      Event.output (Layout.ofName options.settings.tableFormat)
        (seen options disk input isInteractive none) :=
  output_transcript options disk input isInteractive none

/-- Without the list at the end, what is printed is what is reported on the way there. -/
theorem output_run_silent (options : Options) (disk : Disk) (input : Input)
    (isInteractive : Bool) :
    (run options.silent disk input isInteractive).output =
      Event.output (Layout.ofName options.settings.tableFormat)
        (course options disk input isInteractive).events := by
  rw [output_run, seen_silent]
  rfl

/-- A run whose input breaks off prints what it prints without the list at the end. -/
theorem output_run_of_breaksOff (h : BreaksOff options input) (disk : Disk)
    (isInteractive : Bool) :
    (run options disk input isInteractive).output =
      (run options.silent disk input isInteractive).output := by
  have unlisted : ∀ m items, ¬ListsAtEnd options disk input isInteractive none m items :=
    fun _ _ lists => lists.ends.unbroken h
  rw [output_run, output_run, seen_eq_of_not_listsAtEnd unlisted]
  rfl

/-- What is printed without the list at the end is printed first. -/
theorem output_run_silent_isPrefix (options : Options) (disk : Disk) (input : Input)
    (isInteractive : Bool) :
    (run options.silent disk input isInteractive).output.toList <+:
      (run options disk input isInteractive).output.toList := by
  rw [output_run_silent, output_run]
  have events : seen options disk input isInteractive none =
      (body options.settings disk (work options disk input isInteractive)).events := rfl
  cases hresult : (course options disk input isInteractive).result with
  | error v =>
    have same := events.trans (events_body_of_error hresult)
    exact same ▸ List.prefix_rfl
  | ok failures =>
    rw [events, events_body_of_ok hresult, Event.output_append, String.toList_append]
    exact List.prefix_append _ _

end Output

/-- **Interrupted sessions have done the lines they have read.** Take a session of the program on
any text, with any initial values that are accepted, and let it be interrupted when it would read
the line after the first `n`.

If the session has come to its end by then, at a line that ends it, at the end of the text or at a
line that ends the run, all is as if there were no interruption. Otherwise the exit code is the one
that stands for interruptions, and the output is that of a session on the first `n` lines alone,
without the list of the registers at the end. The output of such a session is where the output of
the whole session begins, and an interrupted run is the same for all texts that have the same first
`n` lines. -/
theorem run_interruptAfter (hsource : options.source? = none)
    (hm : Starts options.settings disk m) (text : String) (n : Nat) (isInteractive : Bool) :
    let input := Input.ofStream text
    let whole := run options disk input isInteractive
    let interrupted := run options disk (input.interruptAfter n) isInteractive
    let first := String.ofList (Text.takeLines n text.toList)
    let beginning := run options.silent disk (.ofStream first) isInteractive
    (EndsWithin m input.records n → interrupted = whole) ∧
      (¬EndsWithin m input.records n →
        interrupted.exitCode = 3 ∧ interrupted.output = beginning.output) ∧
      beginning.output.toList <+: whole.output.toList ∧
      ∀ other : String, Text.takeLines n other.toList = Text.takeLines n text.toList →
        run options disk ((Input.ofStream other).interruptAfter n) isInteractive = interrupted := by
  intro input whole interrupted first beginning
  have lines : (Input.ofStream first).records = input.records.take n :=
    Input.records_ofStream_takeLines n text
  refine ⟨fun h => run_congr hsource hm h.session_interruptAfter, fun h => ?_, ?_, ?_⟩
  · obtain ⟨breaks, code⟩ := exits_interruptAfter hsource hm h
    refine ⟨code.exitCode_transcript isInteractive, ?_⟩
    have same : Event.reports (m.session (input.interruptAfter n) isInteractive).events =
        Event.reports (m.session (.ofStream first) isInteractive).events := by
      rw [Input.interruptAfter_of_le (of_not_endsWithin h).1, Machine.session, Machine.session,
        lines]
      exact m.reports_sessionFrom_congr isInteractive _ _ 1 _
    rw [← reports_course_of_session hsource hm, ← reports_course_of_session hsource hm] at same
    calc interrupted.output
        = (run options.silent disk (input.interruptAfter n) isInteractive).output :=
          output_run_of_breaksOff breaks disk isInteractive
      _ = beginning.output := by
          rw [output_run_silent, output_run_silent, Event.output, same, Event.output]
  · have reported : Event.reports (m.session (.ofStream first) isInteractive).events <+:
        Event.reports (m.session input isInteractive).events := by
      have h := m.reports_sessionFrom_isPrefix isInteractive .exhausted input.ending 1
        (input.records.take n) (input.records.drop n)
      rw [List.take_append_drop, ← lines] at h
      exact h
    rw [← reports_course_of_session hsource hm, ← reports_course_of_session hsource hm] at reported
    have printed := Event.output_isPrefix reported (Layout.ofName options.settings.tableFormat)
    rw [← output_run_silent, ← output_run_silent] at printed
    exact printed.trans (output_run_silent_isPrefix options disk input isInteractive)
  · intro other hother
    have records : (Input.ofStream other).records.take n = input.records.take n := by
      rw [← Input.records_ofStream_takeLines, hother, Input.records_ofStream_takeLines]
    exact congrArg (run options disk · isInteractive) (Input.interruptAfter_congr records)

/-- A session with an instruction, a list and a `quit`, interrupted after the first line and after
the last. -/
theorem run_interruptAfter_quit :
    let options : Options := { patch := { dump? := some true } }
    let disk : Disk := fun _ => .error .missing
    let text := "addi $8,$0,7\r\nregs\nquit\n"
    let input := Input.ofStream text
    let interruptedAfter := fun n => run options disk (input.interruptAfter n) true
    ¬EndsWithin .zero input.records 1 ∧
      (interruptedAfter 1).exitCode = 3 ∧
      (interruptedAfter 1).output =
        (run options.silent disk (.ofStream "addi $8,$0,7\r\n") true).output ∧
      EndsWithin .zero input.records 3 ∧
      interruptedAfter 3 = run options disk input true := by
  intro options disk text input interruptedAfter
  have read : input.records =
      ["addi $8,$0,7\n".toList, "regs\n".toList, "quit\n".toList] := by decide
  have first : String.ofList (Text.takeLines 1 text.toList) = "addi $8,$0,7\r\n" := by decide
  have answered : (Machine.zero.stages (Item.ofRecords 1 (input.records.take 1))).all
      (·.fate.isAnswered) = true := by
    decide +kernel
  have early : ¬EndsWithin .zero input.records 1 := by
    intro h
    cases h with
    | quit htext hquit =>
      rw [read] at htext
      obtain rfl := List.mem_singleton.1 htext
      exact absurd hquit (by decide)
    | exhausted hlength =>
      rw [read] at hlength
      exact absurd hlength (by decide)
    | halted hhalted =>
      obtain ⟨stage, hstage, halt, hfate⟩ := hhalted
      have hanswered := List.all_eq_true.1 answered stage hstage
      rw [hfate] at hanswered
      cases hanswered
  have late : EndsWithin .zero input.records 3 := by
    have last : "quit\n".toList ∈ input.records.take 3 := by
      rw [read]
      decide
    exact .quit last (by decide)
  have hm : Starts options.settings disk .zero := .zero rfl
  obtain ⟨-, interrupted, -⟩ := run_interruptAfter rfl hm text 1 true
  rw [first] at interrupted
  exact ⟨early, (interrupted early).1, (interrupted early).2, late,
    (run_interruptAfter rfl hm text 3 true).1 late⟩

end Program

end TinyMips
