import TinyMips.Proofs.Documents
import TinyMips.Proofs.Perform
import TinyMips.Session
import TinyMips.Startup

/-!
# Reachable machines

The machines that can come about: the one with zero everywhere, those that a document of initial
values leaves when it is accepted, and whatever instructions, programs and sessions make of these,
however they end. A property that single instructions preserve is preserved by programs and
sessions (`Machine.runItems_preserves`, `Machine.sessionFrom_preserves`), so a property that holds
at the start and is preserved by instructions holds of all reachable machines
(`Machine.Reachable.of_preserved`). The first such property is that registers hold words
(`Machine.Reachable.holdsWords`).
-/

namespace TinyMips

/-! ## Runs -/

namespace Run

variable {ε α β : Type} {run : Run ε α} {next : Machine → α → Run ε β}

theorem andThen_of_ok {a : α} (h : run.result = .ok a) :
    run.andThen next = (next run.machine a).after run.events := by
  rw [andThen, h]

theorem andThen_of_error {e : ε} (h : run.result = .error e) :
    run.andThen next = { machine := run.machine, events := run.events, result := .error e } := by
  rw [andThen, h]

theorem result_andThen (run : Run ε α) (next : Machine → α → Run ε β) :
    (run.andThen next).result = run.result >>= fun a => (next run.machine a).result := by
  cases h : run.result with
  | error e => rw [andThen_of_error h, error_bind]
  | ok a =>
    rw [andThen_of_ok h, ok_bind]
    rfl

/-- Two runs in a row answer if the first does, and then the second. -/
theorem result_andThen_eq_ok {b : β} :
    (run.andThen next).result = .ok b ↔
      ∃ a, run.result = .ok a ∧ (next run.machine a).result = .ok b := by
  rw [result_andThen, bind_eq_ok]

theorem result_map_eq_ok {f : α → β} {b : β} :
    (run.map f).result = .ok b ↔ ∃ a, run.result = .ok a ∧ f a = b := by
  cases h : run.result with
  | error e => simp [map, h, Except.map]
  | ok a => simp [map, h, Except.map]

theorem result_map_eq_error {f : α → β} {e : ε} :
    (run.map f).result = .error e ↔ run.result = .error e := by
  cases h : run.result with
  | error e => simp [map, h, Except.map]
  | ok a => simp [map, h, Except.map]

theorem andThen_preserves {P : Machine → Prop} (hrun : P run.machine)
    (hnext : ∀ m a, P m → P (next m a).machine) : P (run.andThen next).machine := by
  cases h : run.result with
  | error e =>
    rw [andThen_of_error h]
    exact hrun
  | ok a =>
    rw [andThen_of_ok h]
    exact hnext run.machine a hrun

end Run

namespace Machine

theorem runItems_cons_of_ok {m : Machine} {item : Item} {failures : Nat}
    (h : (m.runItem item).result = .ok failures) (rest : List Item) :
    m.runItems (item :: rest) =
      (((m.runItem item).machine.runItems rest).map (failures + ·)).after
        (m.runItem item).events := by
  rw [runItems, Run.andThen_of_ok h]

variable {P : Machine → Prop}

/-- A program preserves what its instructions preserve. -/
theorem runItems_preserves
    (hstep : ∀ m opcode operands, P m → P (m.dispatch opcode operands).machine) {m : Machine}
    (hm : P m) (items : List Item) : P (m.runItems items).machine := by
  induction items generalizing m with
  | nil => exact hm
  | cons item rest ih =>
    refine Run.andThen_preserves ?_ fun m _ hm => ih hm
    cases item with
    | statement s => exact hstep m s.opcode s.operands hm
    | malformed line => exact hm

/-- The answer to a line of a session preserves what instructions preserve. -/
theorem answer?_preserves
    (hstep : ∀ m opcode operands, P m → P (m.dispatch opcode operands).machine) {m : Machine}
    (hm : P m) {line : Int} {text : List Char} {run : Run Halt Nat}
    (h : m.answer? line text = some run) : P run.machine := by
  rw [answer?] at h
  split at h
  case _ => cases h
  case _ =>
    obtain rfl := Option.some.inj h
    exact hm
  case _ =>
    obtain rfl := Option.some.inj h
    rw [runLine]
    split
    case _ => exact hm
    case _ s _ => exact hstep m s.opcode s.operands hm
    case _ => exact hm

/-- A session preserves what instructions preserve. -/
theorem sessionFrom_preserves
    (hstep : ∀ m opcode operands, P m → P (m.dispatch opcode operands).machine) {m : Machine}
    (hm : P m) (isInteractive : Bool) (ending : Ending) (line : Int)
    (records : List (List Char)) :
    P (m.sessionFrom isInteractive ending line records).machine := by
  induction records generalizing m line with
  | nil => cases ending <;> exact hm
  | cons text rest ih =>
    simp only [sessionFrom, Run.after]
    split
    case _ => exact hm
    case _ run hrun =>
      exact Run.andThen_preserves (answer?_preserves hstep hm hrun) fun m _ hm => ih hm (line + 1)

/-! ## The definition -/

/-- The machines that can come about. -/
inductive Reachable : Machine → Prop
  /-- there are no initial values -/
  | zero : Reachable .zero
  /-- the initial values of a document are written -/
  | start {text : List Char} {values : InitialValues}
      (hread : InitialValues.ofText text = .ok values) (hstart : (start values).result = .ok ()) :
      Reachable (start values).machine
  /-- an instruction is carried out -/
  | dispatch {m : Machine} (h : Reachable m) (opcode operands : String) :
    Reachable (m.dispatch opcode operands).machine
  /-- a program is run -/
  | execute {m : Machine} (h : Reachable m) (source : String) :
    Reachable (m.execute source).machine
  /-- lines are run as they are entered -/
  | session {m : Machine} (h : Reachable m) (input : Input) (isInteractive : Bool) :
    Reachable (m.session input isInteractive).machine

/-- What holds at the start and is preserved by instructions holds of all reachable machines. -/
theorem Reachable.of_preserved (hzero : P .zero)
    (hstart : ∀ text values, InitialValues.ofText text = .ok values →
      (Machine.start values).result = .ok () → P (Machine.start values).machine)
    (hstep : ∀ m opcode operands, P m → P (m.dispatch opcode operands).machine) {m : Machine}
    (h : m.Reachable) : P m := by
  induction h with
  | zero => exact hzero
  | start hread hresult => exact hstart _ _ hread hresult
  | dispatch _ opcode operands ih => exact hstep _ opcode operands ih
  | execute _ source ih => exact runItems_preserves hstep ih _
  | session _ input isInteractive ih => exact sessionFrom_preserves hstep ih _ _ _ _

end Machine

/-! ## Words -/

namespace RegisterFile

variable {size : Nat} {bank : Bank size} {file : RegisterFile bank}

theorem HoldsWords.write (h : file.HoldsWords) {writes : List (Fin size × Int)}
    (hopen : ∀ w ∈ writes, bank.isProtected w.1 = false) (hw : ∀ w ∈ writes, IsWord w.2) :
    (file.write writes).file.HoldsWords := by
  induction writes generalizing file with
  | nil => exact h
  | cons w rest ih =>
    obtain ⟨i, v⟩ := w
    obtain ⟨hi, hrest_open⟩ := List.forall_mem_cons.1 hopen
    obtain ⟨hv, hrest⟩ := List.forall_mem_cons.1 hw
    -- A word can be written out, so the batch is not cut short here.
    rw [file.write_cons hi, if_pos hv.writable]
    exact ih (h.put i hv) hrest_open hrest

/-- A batch of words keeps the file one of words, whether it is made or not. -/
theorem HoldsWords.update (h : file.HoldsWords) {batch : List (String × Int)}
    (hb : ∀ change ∈ batch, IsWord change.2) : (file.update batch).file.HoldsWords := by
  rw [RegisterFile.update]
  split
  case _ => exact h
  case _ writes hwrites =>
    refine h.write (isProtected_of_mem_targets hwrites) fun w hw => ?_
    obtain ⟨change, hchange, -, hv⟩ := exists_of_mem_targets hwrites hw
    exact hv ▸ hb change hchange

end RegisterFile

namespace InitialValues

/-- The initial values that a text gives are words. -/
theorem isWord_of_ofText {text : List Char} {values : InitialValues}
    (h : ofText text = .ok values) :
    (∀ value ∈ values.general, IsWord value.2) ∧
      ∀ value ∈ values.accumulators, IsWord value.2 := by
  rw [ofText] at h
  split at h
  case _ document _ =>
    obtain ⟨hgeneral, haccumulators⟩ := ofDocument_eq_ok_iff.1 h
    exact ⟨(readPart_eq_ok_iff.1 hgeneral).2, (readPart_eq_ok_iff.1 haccumulators).2⟩
  all_goals cases h

end InitialValues

namespace Machine

theorem HoldsWords.start {values : InitialValues}
    (hgeneral : ∀ value ∈ values.general, IsWord value.2)
    (haccumulators : ∀ value ∈ values.accumulators, IsWord value.2) :
    (start values).machine.HoldsWords := by
  have general := holdsWords_zero.general.update hgeneral
  have accumulators := holdsWords_zero.accumulators.update haccumulators
  simp only [Machine.start]
  split
  case _ => exact ⟨general, holdsWords_zero.accumulators⟩
  case _ => split <;> exact ⟨general, accumulators⟩

theorem Performs.holdsWords {m : Machine} {opcode operands : String}
    {run : Run Failure Outcome} (h : m.Performs opcode operands run) (hm : m.HoldsWords) :
    run.machine.HoldsWords := by
  cases h with
  | unknown => exact hm
  | refused => exact hm
  | ignored => exact hm
  | assigned _ _ _ hv => exact ⟨hm.general.put _ hv, hm.accumulators⟩
  | divided _ _ hr hq => exact ⟨hm.general, (hm.accumulators.put _ hr).put _ hq⟩

/-- Instructions keep the machine one of words. -/
theorem HoldsWords.dispatch {m : Machine} (hm : m.HoldsWords) (opcode operands : String) :
    (m.dispatch opcode operands).machine.HoldsWords := by
  rw [machine_dispatch]
  exact (performs hm opcode operands).holdsWords hm

theorem HoldsWords.runItem {m : Machine} (hm : m.HoldsWords) (item : Item) :
    (m.runItem item).machine.HoldsWords := by
  cases item with
  | statement s => exact hm.dispatch s.opcode s.operands
  | malformed line => exact hm

/-- All registers of a reachable machine hold words. -/
theorem Reachable.holdsWords {m : Machine} (h : m.Reachable) : m.HoldsWords := by
  refine h.of_preserved holdsWords_zero (fun text values hread _ => ?_) fun m opcode operands hm =>
    hm.dispatch opcode operands
  obtain ⟨general, accumulators⟩ := InitialValues.isWord_of_ofText hread
  exact .start general accumulators

end Machine

end TinyMips
