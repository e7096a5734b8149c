import TinyMips.Proofs.Atomicity

/-!
# What registers hold

What stays so whatever is asked of a machine. Between running instructions a caller may also read
and write the registers directly, by any names and with any integers. No such access adds, drops or
moves a register, and none writes one that is protected
(`RegisterFile.value_access_of_isProtected`), so `$zero` is zero for good
(`Machine.HoldsZero.serve`). Without direct accesses all registers hold words, and an executed
instruction leaves a word of its kind where it writes (`Machine.Performs.leavesKind`). The main
statement puts these together for any sequence of requests
(`Machine.Reachable.registers_after_requests`).
-/

namespace TinyMips

/-! ## Direct accesses -/

/-- What can be asked of a register file directly. -/
inductive Access where
  /-- the value of a register -/
  | get (name : String)
  /-- another value for a register -/
  | set (name : String) (v : Int)
  /-- a batch of changes -/
  | update (batch : List (String × Int))

namespace RegisterFile

variable {size : Nat} {bank : Bank size} {file : RegisterFile bank}

/-- The register file after an access, whether or not it was granted. -/
def access (file : RegisterFile bank) : Access → RegisterFile bank
  | .get _ => file
  | .set name v => (file.set name v).toOption.getD file
  | .update batch => (file.update batch).file

/-- The registers of a file have the names of the bank, in the same order. -/
theorem map_fst_toList (file : RegisterFile bank) :
    file.toList.map Prod.fst = bank.names.toList := by
  have name_eq : ∀ i : Fin size, bank.name i = bank.names.get i := fun _ => rfl
  rw [toList, List.map_map]
  refine List.ext_getElem (by simp) fun i h _ => ?_
  simp [name_eq, Vector.get]

/-- A register that none of the writes is for keeps its value, however far they get. -/
theorem value_write_of_ne {writes : List (Fin size × Int)} {i : Fin size}
    (hopen : ∀ w ∈ writes, bank.isProtected w.1 = false) (h : ∀ w ∈ writes, w.1 ≠ i) :
    (file.write writes).file.value i = file.value i := by
  induction writes generalizing file with
  | nil => rfl
  | cons w rest ih =>
    obtain ⟨hw_open, hrest_open⟩ := List.forall_mem_cons.1 hopen
    obtain ⟨hw, hrest⟩ := List.forall_mem_cons.1 h
    rw [file.write_cons hw_open]
    split
    case _ => exact (ih hrest_open hrest).trans (value_put_of_ne file hw w.2)
    case _ => rfl

variable {i : Fin size}

/-- A batch of changes leaves a protected register alone. -/
theorem value_update_of_isProtected (h : bank.isProtected i = true)
    (batch : List (String × Int)) : (file.update batch).file.value i = file.value i := by
  rw [update]
  split
  case _ => rfl
  case _ writes hwrites =>
    have writable := isProtected_of_mem_targets hwrites
    refine value_write_of_ne writable fun w hw hi => ?_
    have open_w := writable w hw
    rw [hi, h] at open_w
    cases open_w

/-- Direct accesses leave a protected register alone. -/
theorem value_access_of_isProtected (h : bank.isProtected i = true) (access : Access) :
    (file.access access).value i = file.value i := by
  cases access with
  | get name => rfl
  | update batch => exact value_update_of_isProtected h batch
  | set name v =>
    rw [RegisterFile.access]
    cases hset : file.set name v with
    | error e => rfl
    | ok written =>
      obtain ⟨j, hj, hput⟩ := bind_eq_ok.1 hset
      split at hput
      case _ =>
        cases hput
        refine value_put_of_ne file (fun hji => ?_) v
        rw [hji] at hj
        exact absurd (isProtected_of_target hj) (by simp [h])
      case _ => cases hput

end RegisterFile

/-! ## Requests -/

namespace Machine

/-- What can be asked of a machine. -/
inductive Request where
  /-- to carry out an instruction -/
  | dispatch (opcode operands : String)
  /-- to run a program -/
  | execute (source : String)
  /-- to run lines as they are entered -/
  | session (input : Input) (isInteractive : Bool)
  /-- to list all registers -/
  | list
  /-- to read or write general registers directly -/
  | general (access : Access)
  /-- to read or write accumulators directly -/
  | accumulators (access : Access)

/-- Whether a request goes past the instructions. -/
def Request.isDirect : Request → Bool
  | .general _ | .accumulators _ => true
  | _ => false

/-- The machine after a request, whether or not it was granted. A list of the registers is only
reported (`Machine.listRegisters`). -/
def serve (m : Machine) : Request → Machine
  | .dispatch opcode operands => (m.dispatch opcode operands).machine
  | .execute source => (m.execute source).machine
  | .session input isInteractive => (m.session input isInteractive).machine
  | .list => m
  | .general access => { m with general := m.general.access access }
  | .accumulators access => { m with accumulators := m.accumulators.access access }

/-- The machine after requests, one after the other. -/
def serveAll (m : Machine) (requests : List Request) : Machine :=
  requests.foldl serve m

/-- Requests that run instructions lead from reachable machines to reachable ones. -/
theorem Reachable.serveAll {m : Machine} (hm : m.Reachable) {requests : List Request}
    (h : ∀ request ∈ requests, request.isDirect = false) : (m.serveAll requests).Reachable := by
  induction requests generalizing m with
  | nil => exact hm
  | cons request rest ih =>
    obtain ⟨hrequest, hrest⟩ := List.forall_mem_cons.1 h
    have served : (m.serve request).Reachable := by
      cases request with
      | dispatch opcode operands => exact hm.dispatch opcode operands
      | execute source => exact hm.execute source
      | session input isInteractive => exact hm.session input isInteractive
      | list => exact hm
      | general access => cases hrequest
      | accumulators access => cases hrequest
    exact ih served hrest

/-! ## The register that is always zero -/

/-- The first register holds zero. -/
def HoldsZero (m : Machine) : Prop :=
  m.general.value ⟨0, by decide⟩ = 0

theorem HoldsZero.commit {m : Machine} (hm : m.HoldsZero) (i : Instruction)
    (effect : Instruction.Effect) : (m.commit i effect).machine.HoldsZero := by
  cases effect with
  | assign target v => exact (RegisterFile.value_update_of_isProtected rfl _).trans hm
  | divided d => exact hm
  | unexecuted rs rt => exact hm

/-- Instructions keep the first register zero, on whatever integers the others hold. -/
theorem HoldsZero.dispatch {m : Machine} (hm : m.HoldsZero) (opcode operands : String) :
    (m.dispatch opcode operands).machine.HoldsZero := by
  rw [machine_dispatch, perform]
  split
  case _ => exact hm
  case _ op _ =>
    simp only [Run.after]
    split
    case _ effect _ => exact hm.commit op.instruction effect
    case _ => exact hm

theorem HoldsZero.serve {m : Machine} (hm : m.HoldsZero) (request : Request) :
    (m.serve request).HoldsZero := by
  have hstep : ∀ m opcode operands, HoldsZero m → (m.dispatch opcode operands).machine.HoldsZero :=
    fun _ opcode operands hm => hm.dispatch opcode operands
  cases request with
  | dispatch opcode operands => exact hm.dispatch opcode operands
  | execute source => exact runItems_preserves hstep hm _
  | session input isInteractive => exact sessionFrom_preserves hstep hm _ _ _ _
  | list => exact hm
  | general access => exact (RegisterFile.value_access_of_isProtected rfl access).trans hm
  | accumulators access => exact hm

theorem HoldsZero.serveAll {m : Machine} (hm : m.HoldsZero) (requests : List Request) :
    (m.serveAll requests).HoldsZero := by
  induction requests generalizing m with
  | nil => exact hm
  | cons request rest ih => exact ih (hm.serve request)

theorem HoldsZero.start (values : InitialValues) : (start values).machine.HoldsZero := by
  have general : (zero.general.update values.general).file.value 0 = zero.general.value 0 :=
    RegisterFile.value_update_of_isProtected rfl values.general
  have holds : (zero.general.update values.general).file.value 0 = 0 :=
    general.trans (RegisterFile.value_zero 0)
  simp only [Machine.start]
  split
  case _ => exact holds
  case _ => split <;> exact holds

theorem Reachable.holdsZero {m : Machine} (hm : m.Reachable) : m.HoldsZero :=
  hm.of_preserved (RegisterFile.value_zero 0) (fun _ values _ _ => .start values)
    fun _ opcode operands h => h.dispatch opcode operands

end Machine

/-! ## The kind of word that is written -/

/-- The values that an executed instruction may write: unsigned words for the unsigned sums and
differences, what an accumulator held for a copy of it, and signed words for all others. -/
def Opcode.WritesKind (before : Machine) (v : Int) : Opcode → Prop
  | .addu | .addiu | .subu => Mode.unsigned.InRange v
  | .mfhi => v = before.accumulator .hi
  | .mflo => v = before.accumulator .lo
  | _ => Mode.signed.InRange v

/-- What an instruction asks to be assigned is of its kind. -/
theorem Opcode.writesKind_of_assign {m : Machine} {op : Opcode}
    {ops : Operands op.instruction.shape} {rd : String} {v : Int}
    (h : op.instruction.evaluate m ops = .ok (.assign rd v)) : op.WritesKind m v := by
  have registers {f : Operation} {mode : Mode} {ops : Operands .rrr}
      (h : (Instruction.registers f mode).evaluate m ops = .ok (.assign rd v)) :
      mode.InRange v := by
    cases ops with
    | rrr _ rs rt =>
      obtain ⟨a, -, h⟩ := bind_eq_ok.1 h
      obtain ⟨b, -, h⟩ := bind_eq_ok.1 h
      obtain ⟨w, hw, h⟩ := bind_eq_ok.1 h
      cases h
      exact Operation.inRange_of_apply hw
  have immediate {f : Operation} {mode : Mode} {ops : Operands .rri}
      (h : (Instruction.immediate f mode).evaluate m ops = .ok (.assign rd v)) :
      mode.InRange v := by
    cases ops with
    | rri _ rs n =>
      obtain ⟨a, -, h⟩ := bind_eq_ok.1 h
      obtain ⟨w, hw, h⟩ := bind_eq_ok.1 h
      cases h
      exact Operation.inRange_of_apply hw
  match op, ops with
  | .mfhi, .r _ =>
    cases h
    rfl
  | .mflo, .r _ =>
    cases h
    rfl
  | .mult, .rr _ _ => cases h
  | .div, .rr rs rt =>
    obtain ⟨a, -, h⟩ := bind_eq_ok.1 h
    obtain ⟨b, -, h⟩ := bind_eq_ok.1 h
    obtain ⟨d, -, h⟩ := bind_eq_ok.1 h
    cases h
  | .add, _ | .addu, _ | .sub, _ | .subu, _ | .and, _ | .or, _ | .slt, _ => exact registers h
  | .addi, _ | .addiu, _ | .andi, _ | .ori, _ | .sll, _ | .srl, _ | .slti, _ => exact immediate h

namespace Machine

/-- Whether an instruction has left values of its kind where it writes: in the register that its
operands name as the destination, or else in both accumulators. -/
def LeavesKind (before : Machine) (opcode operands : String) (after : Machine) : Prop :=
  ∃ op ops, Opcode.ofText? opcode = some op ∧
    Operands.parse op.instruction.shape opcode operands = .ok ops ∧
    match ops.destination? with
    | some rd => ∃ i, Bank.general.find rd = .ok (some i) ∧
        op.WritesKind before (after.general.value i)
    | none => ∀ a, op.WritesKind before (after.accumulator a)

theorem Performs.leavesKind {m : Machine} {opcode operands : String} {run : Run Failure Outcome}
    (h : m.Performs opcode operands run) (hm : m.HoldsWords)
    (hrun : run.result = .ok .executed) : m.LeavesKind opcode operands run.machine := by
  cases h with
  | unknown => cases hrun
  | refused => cases hrun
  | ignored => cases hrun
  | @assigned op rd v i hop h hrd _ =>
    obtain ⟨ops, hops, heval⟩ := bind_eq_ok.1 h
    cases Instruction.asks_of_evaluate hm heval with
    | assign _ hdestination =>
      refine ⟨op, ops, hop, hops, ?_⟩
      rw [hdestination]
      refine ⟨i, find_of_target hrd, ?_⟩
      have written : (m.assign i v).general.value i = v := RegisterFile.value_put_self _ i v
      rw [written]
      exact Opcode.writesKind_of_assign heval
  | @divided op d hop h _ _ =>
    obtain ⟨ops, hops, heval⟩ := bind_eq_ok.1 h
    cases Instruction.asks_of_evaluate hm heval with
    | divided hdivide =>
      obtain rfl := Opcode.instruction_eq_divide_iff.1 hdivide
      refine ⟨.div, ops, hop, hops, ?_⟩
      match ops with
      | .rr rs rt =>
        obtain ⟨x, -, heval⟩ := bind_eq_ok.1 heval
        obtain ⟨y, -, heval⟩ := bind_eq_ok.1 heval
        obtain ⟨result, hresult, heval⟩ := bind_eq_ok.1 heval
        cases heval
        obtain ⟨remainder, quotient⟩ := inRange_of_divide hresult
        obtain ⟨hi, lo⟩ := m.accumulator_keepDivision d
        intro a
        cases a with
        | hi => exact hi ▸ remainder
        | lo => exact lo ▸ quotient

/-- **What registers hold.** Let any requests be made of a reachable machine, direct accesses among
them, granted or not. The registers have the names they always had, in the same order, and `$zero`
is zero. If there were no direct accesses, all registers hold words, and whatever instruction is
executed next leaves values of its kind where it writes. -/
theorem Reachable.registers_after_requests {m : Machine} (hm : m.Reachable)
    (requests : List Request) :
    let m' := m.serveAll requests
    m'.general.toList.map Prod.fst = Bank.general.names.toList ∧
      m'.accumulators.toList.map Prod.fst = ["hi", "lo"] ∧
      m'.general.get "$zero" = .ok 0 ∧
      ((∀ request ∈ requests, request.isDirect = false) →
        m'.HoldsWords ∧
        ∀ opcode operands, (m'.dispatch opcode operands).result = .ok .executed →
          m'.LeavesKind opcode operands (m'.dispatch opcode operands).machine) := by
  have zero_eq : (m.serveAll requests).general.value 0 = 0 := hm.holdsZero.serveAll requests
  refine ⟨RegisterFile.map_fst_toList _, RegisterFile.map_fst_toList _, ?_, fun hrequests => ?_⟩
  · have found : Bank.general.source "$zero" = .ok 0 := by
      rw [Bank.source, show "$zero" = Bank.general.name 0 from rfl, Bank.find_name]
    rw [RegisterFile.get, found, ok_bind, zero_eq]
    rfl
  · have words := (hm.serveAll hrequests).holdsWords
    refine ⟨words, fun opcode operands hrun => ?_⟩
    rw [result_dispatch, settle_eq_executed] at hrun
    rw [machine_dispatch]
    exact (performs words opcode operands).leavesKind words hrun

/-- The least word divided by `-1`, after a refused write to `$zero`: the quotient is a word again,
and so is what is copied of it. -/
theorem registers_after_requests_least_quotient :
    let requests : List Request :=
      [.execute "addiu $8,$0,-1\nsll $9,$8,31\naddi $00,$8,1", .list, .dispatch "div" "$9,$8"]
    let m := zero.serveAll requests
    zero.Reachable ∧ (∀ request ∈ requests, request.isDirect = false) ∧
      m.general.get "$zero" = .ok 0 ∧ m.HoldsWords ∧
      (m.dispatch "mflo" "$s0").result = .ok .executed ∧
      m.LeavesKind "mflo" "$s0" (m.dispatch "mflo" "$s0").machine ∧
      (m.dispatch "mflo" "$s0").machine.general.value 16 = -0x80000000 := by
  have all_run : ∀ request ∈ ([.execute "addiu $8,$0,-1\nsll $9,$8,31\naddi $00,$8,1", .list,
      .dispatch "div" "$9,$8"] : List Request), request.isDirect = false := by
    simp [Request.isDirect]
  obtain ⟨-, -, zero_eq, words⟩ := Reachable.registers_after_requests .zero
    [.execute "addiu $8,$0,-1\nsll $9,$8,31\naddi $00,$8,1", .list, .dispatch "div" "$9,$8"]
  obtain ⟨words, leaves⟩ := words all_run
  exact ⟨.zero, all_run, zero_eq, words, rfl, leaves "mflo" "$s0" rfl, rfl⟩

end Machine

end TinyMips
