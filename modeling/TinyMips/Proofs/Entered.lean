import TinyMips.Proofs.SessionRun
import TinyMips.Proofs.Stages

/-!
# What is entered

A session runs the lines that are entered up to the first that ends it, commands aside, and only
what it reports in between differs from what a program reports that holds these lines. The main
statements are that a session leaves the machine that the lines leave and comes to the end that
they come to, unless its input breaks off first (`Machine.session_endsLike`), and that what it
reports are reports of lines, with invitations and answers to `regs` in between
(`Machine.HoldsWords.forall_reports_session`).
-/

namespace TinyMips

/-! ## Runs that report differently -/

/-- Two runs that leave the same machine and come to the same end. -/
structure Run.EndsLike {ε α : Type} (a b : Run ε α) : Prop where
  /-- they leave the same machine -/
  machine : a.machine = b.machine
  /-- they answer the same -/
  result : a.result = b.result

namespace Run

variable {ε α β : Type} {a b : Run ε α}

/-- What leaves the machine alone leaves it as the run before has left it. -/
theorem machine_andThen_of_eq {run : Run ε α} {next : Machine → α → Run ε β}
    (h : ∀ m x, (next m x).machine = m) : (run.andThen next).machine = run.machine := by
  cases hrun : run.result with
  | error e => rw [andThen_of_error hrun]
  | ok x =>
    rw [andThen_of_ok hrun]
    exact h run.machine x

theorem Agrees.endsLike (h : a.Agrees b) : a.EndsLike b :=
  ⟨h.machine, h.result⟩

namespace EndsLike

theorem refl (a : Run ε α) : a.EndsLike a :=
  ⟨rfl, rfl⟩

/-- Events that come before a run make no difference. -/
theorem after (h : a.EndsLike b) (events : List Event) : (a.after events).EndsLike b :=
  ⟨h.machine, h.result⟩

theorem map (h : a.EndsLike b) (f : α → β) : (a.map f).EndsLike (b.map f) :=
  ⟨h.machine, congrArg (Except.map f) h.result⟩

theorem andThen (h : a.EndsLike b) {f g : Machine → α → Run ε β}
    (hnext : ∀ m x, (f m x).EndsLike (g m x)) : (a.andThen f).EndsLike (b.andThen g) := by
  cases hb : b.result with
  | error e =>
    rw [andThen_of_error (h.result.trans hb), andThen_of_error hb]
    exact ⟨h.machine, rfl⟩
  | ok x =>
    rw [andThen_of_ok (h.result.trans hb), andThen_of_ok hb, h.machine]
    exact ⟨(hnext b.machine x).machine, (hnext b.machine x).result⟩

end EndsLike

end Run

/-- The reports among events are the events that are reports. -/
theorem Event.mem_reports {events : List Event} {report : Report} :
    report ∈ reports events ↔ .report report ∈ events := by
  rw [reports, List.mem_filterMap]
  constructor
  · rintro ⟨event, hevent, h⟩
    cases event with
    | report other =>
      obtain rfl := Option.some.inj h
      exact hevent
    | note note => cases h
  · exact fun h => ⟨_, h, rfl⟩

/-! ## The lines of a session -/

/-- The lines of a program among records that are entered, numbered from `line`. Commands are no
lines of a program, and what is entered after the first `quit` does not count. -/
def Item.ofRecords (line : Int) : List (List Char) → List Item
  | [] => []
  | text :: rest =>
    match Command.ofLine text with
    | .quit => []
    | .list => ofRecords (line + 1) rest
    | .run => (Item.ofLine? line text).toList ++ ofRecords (line + 1) rest

namespace Input

/-- Whether an input is interrupted before a session on it has ended. -/
def BreaksOff (input : Input) : Prop :=
  input.ending = .interrupted ∧ ∀ text ∈ input.records, Command.ofLine text ≠ .quit

instance (input : Input) : Decidable input.BreaksOff :=
  inferInstanceAs (Decidable (_ ∧ _))

/-- What is left of a session when all its lines have been run. -/
def close (input : Input) (m : Machine) (failures : Nat) : Run Halt Nat :=
  if input.BreaksOff then { machine := m, events := [], result := .error .interrupted }
  else .done m failures

/-- A line that does not end the session puts off what happens then. -/
theorem close_cons {text : List Char} (h : Command.ofLine text ≠ .quit)
    (rest : List (List Char)) (ending : Ending) :
    close { records := text :: rest, ending } = close { records := rest, ending } := by
  have iff : BreaksOff { records := text :: rest, ending } ↔
      BreaksOff { records := rest, ending } := by
    simp only [BreaksOff, List.forall_mem_cons, h, ne_eq, not_false_eq_true, true_and]
  funext m failures
  simp only [close, iff]

theorem machine_close (input : Input) (m : Machine) (failures : Nat) :
    (input.close m failures).machine = m := by
  unfold close
  split <;> rfl

theorem result_close (input : Input) (m : Machine) (failures : Nat) :
    (input.close m failures).result =
      if input.BreaksOff then .error .interrupted else .ok failures := by
  unfold close
  split <;> rfl

/-- Failures before the end of a session add to those that it answers with. -/
theorem map_close (input : Input) (m : Machine) (first later : Nat) :
    (input.close m later).map (first + ·) = input.close m (first + later) := by
  unfold close
  split <;> rfl

end Input

namespace Machine

/-- A session ends like the lines that are entered, and then as its input does. -/
theorem sessionFrom_endsLike (m : Machine) (isInteractive : Bool) (ending : Ending) (line : Int)
    (records : List (List Char)) :
    (m.sessionFrom isInteractive ending line records).EndsLike
      ((m.runItems (Item.ofRecords line records)).andThen (Input.close { records, ending })) := by
  induction records generalizing m line with
  | nil => cases ending <;> exact ⟨rfl, rfl⟩
  | cons text rest ih =>
    rw [sessionFrom, Item.ofRecords, answer?]
    refine .after ?_ _
    cases hcommand : Command.ofLine text with
    | quit =>
      -- The input has not broken off before the session ended.
      have ended : ¬Input.BreaksOff { records := text :: rest, ending } := fun h =>
        h.2 text List.mem_cons_self hcommand
      simp only [runItems, Run.done_andThen, Input.close, ended, ↓reduceIte]
      exact .refl _
    | list =>
      rw [Input.close_cons (by simp [hcommand])]
      have goesOn : ((m.sessionFrom isInteractive ending (line + 1) rest).map (0 + ·)).EndsLike
          ((m.runItems (Item.ofRecords (line + 1) rest)).andThen
            (Input.close { records := rest, ending })) := by
        simp only [Nat.zero_add, Run.map_id]
        exact ih m (line + 1)
      exact goesOn.after m.listRegisters
    | run =>
      rw [Input.close_cons (by simp [hcommand]), runItems_append, Run.andThen_assoc]
      refine (runLine_agrees m line text).endsLike.andThen fun m first => ?_
      have goesOn := (ih m (line + 1)).map (first + ·)
      simp only [Run.andThen_map, Input.map_close] at goesOn
      rw [Run.map_andThen]
      exact goesOn

/-- A session leaves the machine that the lines leave which are entered in it. -/
theorem machine_session (m : Machine) (input : Input) (isInteractive : Bool) :
    (m.session input isInteractive).machine =
      (m.runItems (Item.ofRecords 1 input.records)).machine := by
  have ends := (m.sessionFrom_endsLike isInteractive input.ending 1 input.records).machine
  exact ends.trans (Run.machine_andThen_of_eq input.machine_close)

/-- A session comes to the end that the lines come to which are entered in it, unless its input
breaks off first. -/
theorem result_session (m : Machine) (input : Input) (isInteractive : Bool) :
    (m.session input isInteractive).result =
      (m.runItems (Item.ofRecords 1 input.records)).result >>= fun failures =>
        if input.BreaksOff then .error .interrupted else .ok failures := by
  have ends := (m.sessionFrom_endsLike isInteractive input.ending 1 input.records).result
  rw [Run.result_andThen] at ends
  simp only [input.result_close] at ends
  exact ends

/-! ## The reports of a session -/

/-- Whether all that is reported of single lines is of a kind. -/
def LinesReport (P : Report → Prop) : Prop :=
  ∀ (m : Machine) (item : Item), m.HoldsWords →
    ∀ report ∈ Event.reports (m.runItem item).events, P report

namespace HoldsWords

variable {P : Report → Prop} {m : Machine}

/-- What is reported of a program is of the kind that is reported of single lines. -/
theorem forall_reports_runItems (hitem : LinesReport P) (hm : m.HoldsWords) (items : List Item) :
    ∀ report ∈ Event.reports (m.runItems items).events, P report := by
  have staged : ∀ stage ∈ m.stages items, ∀ report ∈ Event.reports stage.events, P report :=
    forall_mem_stages (fun _ item h => h.runItem item) (fun m h item _ => hitem m item h) hm
  intro report hreport
  rw [events_runItems, Event.mem_reports, List.mem_flatMap] at hreport
  obtain ⟨stage, hstage, hmem⟩ := hreport
  exact staged stage hstage report (Event.mem_reports.2 hmem)

/-- What is reported in answer to a line of a session is of a kind that takes in lists of the
registers and what is reported of single lines. -/
theorem forall_reports_answer (hitem : LinesReport P)
    (hlist : ∀ m : Machine, P (.registers m.toList)) (hm : m.HoldsWords) {line : Int}
    {text : List Char} {run : Run Halt Nat} (hanswer : m.answer? line text = some run) :
    ∀ report ∈ Event.reports run.events, P report := by
  rw [answer?] at hanswer
  split at hanswer
  case _ => cases hanswer
  case _ =>
    obtain rfl := Option.some.inj hanswer
    exact List.forall_mem_singleton.2 (hlist m)
  case _ =>
    obtain rfl := Option.some.inj hanswer
    rw [(runLine_agrees m line text).reports]
    exact hm.forall_reports_runItems hitem _

/-- All replies of a session are of such a kind. -/
theorem forall_mem_replies (hitem : LinesReport P)
    (hlist : ∀ m : Machine, P (.registers m.toList)) (hm : m.HoldsWords) (line : Int)
    (records : List (List Char)) :
    ∀ reply ∈ m.replies line records, ∀ report ∈ reply, P report := by
  have unanswered : ∀ reply ∈ [([] : List Report)], ∀ report ∈ reply, P report :=
    List.forall_mem_singleton.2 fun _ h => absurd h List.not_mem_nil
  induction records generalizing m line with
  | nil => exact unanswered
  | cons text rest ih =>
    rw [replies]
    cases hanswer : m.answer? line text with
    | none => exact unanswered
    | some run =>
      refine List.forall_mem_cons.2 ⟨hm.forall_reports_answer hitem hlist hanswer, ?_⟩
      cases run.result with
      | error halt => exact fun _ h => absurd h List.not_mem_nil
      | ok failures =>
        exact ih (answer?_preserves (fun _ opcode operands h => h.dispatch opcode operands) hm
          hanswer) (line + 1)

/-- All reports of a session are of such a kind if it takes in invitations. -/
theorem forall_reports_session (hitem : LinesReport P)
    (hlist : ∀ m : Machine, P (.registers m.toList)) (hprompt : P .prompt) (hm : m.HoldsWords)
    (input : Input) (isInteractive : Bool) :
    ∀ report ∈ Event.reports (m.session input isInteractive).events, P report := by
  have invited : ∀ report ∈ Event.reports (invitation isInteractive), P report := by
    cases isInteractive with
    | false => exact fun _ h => absurd h List.not_mem_nil
    | true => exact List.forall_mem_singleton.2 hprompt
  intro report hreport
  rw [session, reports_sessionFrom, List.mem_flatMap] at hreport
  obtain ⟨reply, hreply, hreport⟩ := hreport
  rcases List.mem_append.1 hreport with h | h
  · exact invited report h
  · exact hm.forall_mem_replies hitem hlist 1 input.records reply hreply report h

end HoldsWords

end Machine

/-! ## Lists of the registers -/

/-- The registers that a report lists, if it lists any. -/
def Report.listed? : Report → Option (List (String × Int))
  | .registers list => some list
  | _ => none

namespace Event

/-- The lists of the registers among events. -/
def listings (events : List Event) : List (List (String × Int)) :=
  (reports events).filterMap Report.listed?

end Event

namespace Machine

variable {m : Machine}

theorem Performs.listings_eq_nil {opcode operands : String} {run : Run Failure Outcome}
    (h : m.Performs opcode operands run) : Event.listings run.events = [] := by
  cases h <;> rfl

namespace HoldsWords

/-- A line of a program lists no registers. -/
theorem listings_runItem (hm : m.HoldsWords) (item : Item) :
    Event.listings (m.runItem item).events = [] := by
  cases item with
  | malformed line => rfl
  | statement s =>
    change Event.listings (m.dispatch s.opcode s.operands).events = []
    have performed := (performs hm s.opcode s.operands).listings_eq_nil
    rw [Event.listings] at performed
    rw [Event.listings, filterMap_reports_dispatch fun _ => rfl, performed]
    rfl

theorem listings_runItems (hm : m.HoldsWords) (items : List Item) :
    Event.listings (m.runItems items).events = [] := by
  refine List.filterMap_eq_nil_iff.2 (hm.forall_reports_runItems ?_ items)
  exact fun m item hm => List.filterMap_eq_nil_iff.1 (hm.listings_runItem item)

/-- The registers are listed once in answer to a line that asks for it, and not in answer to any
other. -/
theorem length_listings_answer (hm : m.HoldsWords) {line : Int} {text : List Char}
    {run : Run Halt Nat} (hanswer : m.answer? line text = some run) :
    (Event.listings run.events).length = if Command.ofLine text = .list then 1 else 0 := by
  rw [answer?] at hanswer
  split at hanswer
  case _ => cases hanswer
  case _ hcommand =>
    obtain rfl := Option.some.inj hanswer
    rw [hcommand]
    rfl
  case _ hcommand =>
    obtain rfl := Option.some.inj hanswer
    rw [Event.listings, (runLine_agrees m line text).reports, hcommand]
    exact congrArg List.length (hm.listings_runItems _)

/-- In what is replied in a session there are no more lists of the registers than lines that ask for
one. -/
theorem length_listings_replies_le (hm : m.HoldsWords) (line : Int) (records : List (List Char)) :
    ((m.replies line records).flatten.filterMap Report.listed?).length ≤
      (Command.beforeQuit records).countP (Command.ofLine · = .list) := by
  induction records generalizing m line with
  | nil => exact Nat.le_refl 0
  | cons text rest ih =>
    rw [replies]
    cases hanswer : m.answer? line text with
    | none => exact Nat.zero_le _
    | some run =>
      have goesOn : Command.ofLine text ≠ .quit := fun hquit => by
        rw [answer?_eq_none_iff.2 hquit] at hanswer
        cases hanswer
      have counts : Command.beforeQuit (text :: rest) = text :: Command.beforeQuit rest :=
        List.takeWhile_cons_of_pos (by simpa using goesOn)
      have words : run.machine.HoldsWords :=
        answer?_preserves (fun _ opcode operands h => h.dispatch opcode operands) hm hanswer
      have first := hm.length_listings_answer hanswer
      rw [Event.listings] at first
      have later := ih words (line + 1)
      rw [counts, List.countP_cons, List.flatten_cons, List.filterMap_append, List.length_append,
        first]
      simp only [decide_eq_true_eq]
      cases run.result with
      | error halt => simp
      | ok failures =>
        rw [Nat.add_comm]
        exact Nat.add_le_add_right later _

/-- The registers are listed in a session no more often than lines ask for it. -/
theorem length_listings_session_le (hm : m.HoldsWords) (input : Input) (isInteractive : Bool) :
    (Event.listings (m.session input isInteractive).events).length ≤
      (Command.beforeQuit input.records).countP (Command.ofLine · = .list) := by
  have uninvited : (Event.reports (invitation isInteractive)).filterMap Report.listed? = [] := by
    cases isInteractive <;> rfl
  have listed : Event.listings (m.session input isInteractive).events =
      (m.replies 1 input.records).flatten.filterMap Report.listed? := by
    rw [Event.listings, session, reports_sessionFrom]
    induction m.replies 1 input.records with
    | nil => rfl
    | cons reply rest ih =>
      rw [List.flatMap_cons, List.flatten_cons, List.filterMap_append, List.filterMap_append,
        List.filterMap_append, uninvited, List.nil_append, ih]
  rw [listed]
  exact hm.length_listings_replies_le 1 input.records

end HoldsWords

end Machine

end TinyMips
