import TinyMips.Proofs.Reachable

/-!
# Atomicity

An instruction is carried out as a whole or not at all. The main statement is that one that is not
executed, whether it fails, is ignored or ends the run, leaves every register as it was and reports
no changes, and that one that is executed reports its changes once, in a table that can be drawn,
and writes nowhere but to its destination (`Machine.Reachable.dispatch_atomic`). Division has the
accumulators for its destination; all other instructions leave them alone.
-/

namespace TinyMips

/-- The changes that are reported, one list for each table. -/
def Event.changeLists (events : List Event) : List (List Change) :=
  (reports events).filterMap fun
    | .changes list => some list
    | _ => none

namespace Machine

/-- Whether two machines agree on everything but one general register. -/
def AgreesExcept (i : Fin generalSize) (m m' : Machine) : Prop :=
  (∀ j, j ≠ i → m'.general.value j = m.general.value j) ∧ m'.accumulators = m.accumulators

theorem agreesExcept_assign (m : Machine) (i : Fin generalSize) (v : Int) :
    AgreesExcept i m (m.assign i v) :=
  ⟨fun _ hj => RegisterFile.value_put_of_ne _ hj.symm v, rfl⟩

end Machine

theorem Opcode.instruction_eq_divide_iff {op : Opcode} : op.instruction = .divide ↔ op = .div := by
  cases op <;> decide

/-! ## Tables of changes -/

/-- The names of registers are shown as they are. -/
theorem isVerbatim_of_mem_name_general (i : Fin generalSize) :
    ∀ c ∈ (Bank.general.name i).toList, Text.isVerbatim c := by
  have all : ∀ i, (Bank.general.name i).toList.all Text.isVerbatim = true := by decide
  exact List.all_eq_true.1 (all i)

theorem isVerbatim_of_mem_name_accumulators (a : Accumulator) :
    ∀ c ∈ a.name.toList, Text.isVerbatim c := by
  have all : a.name.toList.all Text.isVerbatim = true := by cases a <;> decide
  exact List.all_eq_true.1 all

/-- A change that a table can show: its register has a plain name, and its values can be written
out. -/
structure Change.IsShown (change : Change) : Prop where
  /-- the name is plain -/
  register : ∀ c ∈ change.register.toList, Text.isVerbatim c
  /-- the value before can be written -/
  old : Numeral.Writable change.old
  /-- the value after can be written -/
  new : Numeral.Writable change.new

/-- A table of changes is drawn in every layout if the names are plain. -/
theorem draw_changes_of_isVerbatim {changes : List Change}
    (h : ∀ change ∈ changes, ∀ c ∈ change.register.toList, Text.isVerbatim c) (layout : Layout) :
    (Report.changes changes).draw layout =
      .ok ((Report.changes changes).render layout) := by
  have drawn : (Report.changes changes).table?.bind (Table.fault? layout) = none := by
    refine Table.fault?_eq_none layout fun row hrow => ?_
    obtain ⟨change, hchange, rfl⟩ := List.mem_map.1 hrow
    exact h change hchange
  rw [Report.draw, drawn]

theorem draw_changes {changes : List Change} (h : ∀ change ∈ changes, change.IsShown)
    (layout : Layout) :
    (Report.changes changes).draw layout =
      .ok ((Report.changes changes).render layout) :=
  draw_changes_of_isVerbatim (fun change hchange => (h change hchange).register) layout

namespace Machine

theorem isShown_assignmentChange {m : Machine} (hm : m.HoldsWords) (i : Fin generalSize) {v : Int}
    (hv : IsWord v) : (m.assignmentChange i v).IsShown :=
  ⟨isVerbatim_of_mem_name_general i, (hm.general i).writable, hv.writable⟩

theorem isShown_divisionChanges {m : Machine} (hm : m.HoldsWords) {d : Division}
    (hr : IsWord d.remainder) (hq : IsWord d.quotient) :
    ∀ change ∈ m.divisionChanges d, change.IsShown := by
  simp only [divisionChanges, List.forall_mem_cons]
  exact ⟨⟨isVerbatim_of_mem_name_accumulators .hi, (hm.accumulators _).writable, hr.writable⟩,
    ⟨isVerbatim_of_mem_name_accumulators .lo, (hm.accumulators _).writable, hq.writable⟩,
    by simp⟩

/-! ## One instruction -/

/-- What an instruction may write when it is executed. -/
def WritesDestination (m : Machine) (opcode operands : String) (m' : Machine) : Prop :=
  ∃ op, Opcode.ofText? opcode = some op ∧
    (op = .div → m'.general = m.general) ∧
    (op ≠ .div → ∃ ops rd i, Operands.parse op.instruction.shape opcode operands = .ok ops ∧
      ops.destination? = some rd ∧ Bank.general.find rd = .ok (some i) ∧ AgreesExcept i m m')

theorem find_of_target {size : Nat} {bank : Bank size} {name : String} {i : Fin size}
    (h : bank.target name = .ok i) : bank.find name = .ok (some i) := by
  obtain ⟨j, hj, h⟩ := bind_eq_ok.1 h
  split at h
  case _ => cases h
  case _ =>
    cases h
    rw [Bank.source] at hj
    split at hj
    case _ => cases hj
    case _ => cases hj
    case _ k hk =>
      cases hj
      exact hk

namespace Performs

variable {m : Machine} {opcode operands : String} {run : Run Failure Outcome}

/-- Where an instruction is not executed, nothing is written and no changes are reported. -/
theorem unchanged (h : m.Performs opcode operands run) (hrun : run.result ≠ .ok .executed) :
    run.machine = m ∧ Event.changeLists run.events = [] := by
  cases h with
  | unknown => exact ⟨rfl, rfl⟩
  | refused => exact ⟨rfl, rfl⟩
  | ignored => exact ⟨rfl, rfl⟩
  | assigned => exact absurd rfl hrun
  | divided => exact absurd rfl hrun

/-- Where an instruction is executed, its changes are reported once and can be shown. -/
theorem reported (h : m.Performs opcode operands run) (hm : m.HoldsWords)
    (hrun : run.result = .ok .executed) :
    ∃ changes, Event.changeLists run.events = [changes] ∧ ∀ change ∈ changes, change.IsShown := by
  cases h with
  | unknown => cases hrun
  | refused => cases hrun
  | ignored => cases hrun
  | @assigned op rd v i _ _ _ hv =>
    exact ⟨[m.assignmentChange i v], rfl,
      List.forall_mem_singleton.2 (isShown_assignmentChange hm i hv)⟩
  | divided _ _ hr hq => exact ⟨_, rfl, isShown_divisionChanges hm hr hq⟩

/-- Where an instruction is executed, it writes to its destination only. -/
theorem framed (h : m.Performs opcode operands run) (hm : m.HoldsWords)
    (hrun : run.result = .ok .executed) : m.WritesDestination opcode operands run.machine := by
  cases h with
  | unknown => cases hrun
  | refused => cases hrun
  | ignored => cases hrun
  | @assigned op rd v i hop h hrd _ =>
    obtain ⟨ops, hops, heval⟩ := bind_eq_ok.1 h
    cases Instruction.asks_of_evaluate hm heval with
    | assign hdivide hdestination =>
      refine ⟨op, hop, fun hdiv => ?_, fun _ => ?_⟩
      · exact absurd (Opcode.instruction_eq_divide_iff.2 hdiv) hdivide
      · exact ⟨ops, rd, i, hops, hdestination, find_of_target hrd, m.agreesExcept_assign i v⟩
  | @divided op d hop h _ _ =>
    obtain ⟨ops, hops, heval⟩ := bind_eq_ok.1 h
    cases Instruction.asks_of_evaluate hm heval with
    | divided hdivide =>
      have hdiv := Opcode.instruction_eq_divide_iff.1 hdivide
      exact ⟨op, hop, fun _ => rfl, fun hne => absurd hdiv hne⟩

end Performs

theorem settle_eq_executed {result : Except Failure Outcome} :
    settle result = .ok .executed ↔ result = .ok .executed := by
  unfold settle
  split <;> simp

/-- Announcing an instruction and reporting its fault add no changes. -/
theorem changeLists_dispatch (m : Machine) (opcode operands : String) :
    Event.changeLists (m.dispatch opcode operands).events =
      Event.changeLists (m.perform opcode operands).events :=
  filterMap_reports_dispatch (fun _ => rfl) m opcode operands

/-- **Instructions are atomic.** On a reachable machine, an instruction that is not executed, be it
that it fails, is ignored or ends the run, changes no register and reports no changes. One that is
executed reports its changes in exactly one table, which can be drawn in every layout, and changes
nothing but its destination. -/
theorem Reachable.dispatch_atomic {m : Machine} (hm : m.Reachable) (opcode operands : String) :
    let run := m.dispatch opcode operands
    (run.result ≠ .ok .executed → run.machine = m ∧ Event.changeLists run.events = []) ∧
      (run.result = .ok .executed →
        (∃ changes, Event.changeLists run.events = [changes] ∧
          (∀ change ∈ changes, change.IsShown) ∧
          ∀ layout, (Report.changes changes).draw layout =
            .ok ((Report.changes changes).render layout)) ∧
        m.WritesDestination opcode operands run.machine) := by
  have h := performs hm.holdsWords opcode operands
  simp only [machine_dispatch, result_dispatch, changeLists_dispatch, ne_eq, settle_eq_executed]
  refine ⟨h.unchanged, fun hrun => ⟨?_, h.framed hm.holdsWords hrun⟩⟩
  obtain ⟨changes, hchanges, hshown⟩ := h.reported hm.holdsWords hrun
  exact ⟨changes, hchanges, hshown, draw_changes hshown⟩

/-- A division on a machine with two signed words in its registers. -/
theorem dispatch_atomic_division :
    let m := (zero.execute "addi $8,$0,-7\naddi $9,$0,2").machine
    let run := m.dispatch "div" "$t0,$t1"
    m.Reachable ∧ run.result = .ok .executed ∧
      (∃ changes, Event.changeLists run.events = [changes] ∧
        (∀ change ∈ changes, change.IsShown) ∧
        ∀ layout, (Report.changes changes).draw layout =
          .ok ((Report.changes changes).render layout)) ∧
      m.WritesDestination "div" "$t0,$t1" run.machine :=
  ⟨.execute .zero _, rfl, (Reachable.dispatch_atomic (.execute .zero _) "div" "$t0,$t1").2 rfl⟩

end Machine

end TinyMips
