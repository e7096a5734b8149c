import TinyMips.Proofs.DataIndependence
import TinyMips.Proofs.ShortRuns

/-!
# Which error an instruction gets

An instruction can have several things wrong with it, and gets the error of the first that is looked
for: that its operands are not what it takes, that a source is no register, that its operation
cannot be computed, that its destination is no register or cannot be written.
`Instruction.complaints` lists what can be wrong with operands in this order, with the words for it,
and `Complaint.First` says which of the words are told. The main statement is that an instruction
whose operands have no long runs fails with just these words, and is executed if nothing is wrong
(`Machine.Reachable.dispatch_complaints`).
-/

namespace TinyMips

/-! ## Complaints -/

/-- Something that can be wrong with an instruction. -/
structure Complaint where
  /-- whether it is wrong -/
  applies : Prop
  /-- the words for it -/
  words : String

namespace Complaint

/-- The name is that of no register. -/
def unknown (name : String) : Complaint :=
  ⟨¬IsRegister name, "Unknown register " ++ Text.quoted name⟩

/-- A word cannot be shifted by the amount. -/
def amount (n : Int) : Complaint :=
  ⟨¬(0 ≤ n ∧ n ≤ 31), "Shift amount " ++ toString n ++ " out of range 0..31"⟩

/-- The register with this name holds a value that is congruent to zero. -/
def divisor (m : Machine) (name : String) : Complaint :=
  ⟨∃ i, Bank.general.find name = .ok (some i) ∧ m.general.value i % wordSize = 0,
    "Division by zero"⟩

/-- The name is that of the register that is always zero. -/
def alwaysZero (name : String) : Complaint :=
  ⟨∃ i, Bank.general.find name = .ok (some i) ∧ i.val = 0, "$zero cannot be written to"⟩

/-- Whether a list of complaints has these words for the first of them that applies. -/
inductive First : List Complaint → String → Prop
  /-- the complaint in front applies -/
  | here {c : Complaint} {rest : List Complaint} (h : c.applies) : First (c :: rest) c.words
  /-- the complaint in front does not apply -/
  | later {c : Complaint} {rest : List Complaint} {words : String} (h : ¬c.applies)
    (hrest : First rest words) : First (c :: rest) words

/-- Where a complaint applies, there are words for the first that does. -/
theorem exists_first {complaints : List Complaint} {c : Complaint} (hc : c ∈ complaints)
    (h : c.applies) : ∃ words, First complaints words := by
  induction complaints with
  | nil => cases hc
  | cons d rest ih =>
    by_cases hd : d.applies
    · exact ⟨d.words, .here hd⟩
    · rcases List.mem_cons.1 hc with rfl | hrest
      · exact absurd h hd
      · obtain ⟨words, hfirst⟩ := ih hrest
        exact ⟨words, .later hd hfirst⟩

/-- Whether complaints decide a computation: it fails with the words of the first that applies, and
answers if none does. -/
structure Decide (complaints : List Complaint) (x : Except Failure Unit) : Prop where
  /-- it fails with the words of the first that applies -/
  fails : ∀ words, First complaints words → ∃ f : Fault, x = .error (.fault f) ∧ f.message = words
  /-- it answers if none applies -/
  answers : (∀ c ∈ complaints, ¬c.applies) → x = .ok ()

namespace Decide

theorem nil : Decide [] (.ok ()) :=
  ⟨fun _ h => (nomatch h), fun _ => rfl⟩

/-- One complaint in front of a computation: it is made before what the others decide. -/
theorem cons {c : Complaint} {rest : List Complaint} {x : Except Failure Unit}
    (happlies : c.applies → ∃ f : Fault, x = .error (.fault f) ∧ f.message = c.words)
    (hrest : ¬c.applies → Decide rest x) : Decide (c :: rest) x := by
  constructor
  · intro words hfirst
    cases hfirst with
    | here h => exact happlies h
    | later h hlater => exact (hrest h).fails words hlater
  · intro hnone
    obtain ⟨hc, hothers⟩ := List.forall_mem_cons.1 hnone
    exact (hrest hc).answers hothers

/-- Two computations in a row are decided by the complaints of the first and then those of the
second. -/
theorem bind {a b : List Complaint} {x y : Except Failure Unit} (ha : Decide a x)
    (hb : x = .ok () → Decide b y) : Decide (a ++ b) (x >>= fun _ => y) := by
  induction a with
  | nil =>
    have hx : x = .ok () := ha.answers (by simp)
    rw [hx]
    exact hb hx
  | cons c rest ih =>
    refine cons (fun hc => ?_) fun hc => ?_
    · obtain ⟨f, rfl, hf⟩ := ha.fails _ (.here hc)
      exact ⟨f, rfl, hf⟩
    · refine ih ⟨fun words hfirst => ha.fails words (.later hc hfirst), fun hnone => ?_⟩
      exact ha.answers (List.forall_mem_cons.2 ⟨hc, hnone⟩)

end Decide

end Complaint

/-! ## Checks -/

theorem not_isRegister_of_find {name : String} (h : Bank.general.find name = .ok none) :
    ¬IsRegister name := by
  rintro ⟨i, hi⟩
  cases h.symm.trans hi

/-- A token that is not overlong is the name of a register or of none. -/
theorem find_cases {name : String} (h : IsToken name) (hshort : ¬IsOverlong name) :
    Bank.general.find name = .ok none ∧ ¬IsRegister name ∨
      ∃ i, Bank.general.find name = .ok (some i) := by
  cases hfind : Bank.general.find name with
  | error e => exact absurd ((find_eq_error_iff h).1 ⟨e, hfind⟩) hshort
  | ok i? =>
    cases i? with
    | none => exact .inl ⟨rfl, not_isRegister_of_find hfind⟩
    | some i => exact .inr ⟨i, rfl⟩

namespace Check

open Complaint

variable {m : Machine} {name : String}

theorem decide_source (h : IsToken name) (hshort : ¬IsOverlong name) :
    Decide [.unknown name] ((source name).verdict m) := by
  refine .cons (fun hunknown => ?_) fun hknown => ?_
  · rcases find_cases h hshort with ⟨hfind, -⟩ | hregister
    · exact ⟨.unknownRegister name, by rw [verdict, Bank.source, hfind]; rfl, rfl⟩
    · exact absurd hregister hunknown
  · rw [source_eq_ok.2 (not_not.1 hknown)]
    exact .nil

theorem decide_amount {n : Int} (h : Numeral.Writable n) :
    Decide [.amount n] ((Check.amount n).verdict m) := by
  refine .cons (fun hout => ?_) fun hin => ?_
  · have refused : ¬(0 ≤ n ∧ n ≤ greatestShift) := hout
    refine ⟨.shiftOutOfRange n, ?_, rfl⟩
    rw [verdict, shiftAmount, if_neg refused, if_pos h]
    rfl
  · rw [(amount_eq_ok n).2 (not_not.1 hin)]
    exact .nil

theorem decide_divisor (h : IsRegister name) :
    Decide [.divisor m name] ((Check.divisor name).verdict m) := by
  obtain ⟨i, hi⟩ := h
  rw [verdict_divisor m hi]
  refine .cons ?_ fun hnonzero => ?_
  · rintro ⟨j, hj, hzero⟩
    obtain rfl : j = i := Option.some.inj (Except.ok.inj (hj.symm.trans hi))
    exact ⟨.divisionByZero, if_pos hzero, rfl⟩
  · rw [if_neg fun hzero => hnonzero ⟨i, hi, hzero⟩]
    exact .nil

theorem decide_destination (h : IsToken name) (hshort : ¬IsOverlong name) :
    Decide [.unknown name, .alwaysZero name] ((destination name).verdict m) := by
  rcases find_cases h hshort with ⟨hfind, hnone⟩ | ⟨i, hi⟩
  · refine .cons (fun _ => ⟨.unknownRegister name, ?_, rfl⟩) fun hknown => absurd hnone hknown
    rw [verdict, Bank.target, Bank.source, hfind]
    rfl
  · refine .cons (fun hunknown => absurd ⟨i, hi⟩ hunknown) fun _ => ?_
    have source := Bank.source_of_find hi
    refine .cons ?_ fun hnonzero => ?_
    · rintro ⟨j, hj, hzero⟩
      obtain rfl : j = i := Option.some.inj (Except.ok.inj (hj.symm.trans hi))
      obtain rfl : j = 0 := Fin.ext hzero
      refine ⟨.protectedRegister (Bank.general.name 0), ?_, rfl⟩
      rw [verdict, Bank.target, source]
      rfl
    · have hi0 : i ≠ 0 := by
        rintro rfl
        exact hnonzero ⟨0, hi, rfl⟩
      have writable : Bank.general.isProtected i = false := decide_eq_false hi0
      rw [verdict, Bank.target, source, ok_bind, writable]
      exact .nil

end Check

/-! ## Instructions -/

/-- The registers that operands name as sources, from left to right. -/
def Operands.sources : {shape : Shape} → Operands shape → List String
  | _, .rrr _ rs rt => [rs, rt]
  | _, .rri _ rs _ => [rs]
  | _, .rr rs rt => [rs, rt]
  | _, .r _ => []

namespace Instruction

/-- What can be wrong with the operation of an instruction once its sources are known. -/
def operationComplaints (m : Machine) : (i : Instruction) → Operands i.shape → List Complaint
  | .immediate op _, .rri _ _ n => if op.isShift then [.amount n] else []
  | .divide, .rr _ rt => [.divisor m rt]
  | _, _ => []

/-- What can be wrong with operands, in the order in which it is looked for: the sources, the
operation, and then the destination. -/
def complaints (m : Machine) (i : Instruction) (ops : Operands i.shape) : List Complaint :=
  ops.sources.map .unknown ++ i.operationComplaints m ops ++
    ops.destination?.toList.flatMap fun rd => [.unknown rd, .alwaysZero rd]

open Complaint Check

/-- The checks of an instruction that is carried out come out as the complaints about its operands
decide. -/
theorem decide_complaints (m : Machine) {i : Instruction} (hi : i ≠ .multiply)
    {ops : Operands i.shape} {s : List Char} (hops : ops.Written s)
    (hruns : Text.RunsWithin 3500 s) :
    Decide (i.complaints m ops) (Check.verdicts m (i.checks ops)) := by
  have tokens := hops.isToken
  have short := hops.not_isOverlong hruns
  match i, ops with
  | .registers op mode, .rrr rd rs rt =>
    obtain ⟨hrd, hrs, hrt⟩ : IsToken rd ∧ IsToken rs ∧ IsToken rt := by
      simpa [Operands.registers] using tokens
    obtain ⟨srd, srs, srt⟩ : ¬IsOverlong rd ∧ ¬IsOverlong rs ∧ ¬IsOverlong rt := by
      simpa [Operands.registers] using short
    refine (decide_source hrs srs).bind fun _ => ?_
    refine (decide_source hrt srt).bind fun _ => ?_
    exact (decide_destination hrd srd).bind fun _ => .nil
  | .immediate op mode, .rri rd rs n =>
    obtain ⟨hrd, hrs⟩ : IsToken rd ∧ IsToken rs := by
      simpa [Operands.registers] using tokens
    obtain ⟨srd, srs⟩ : ¬IsOverlong rd ∧ ¬IsOverlong rs := by
      simpa [Operands.registers] using short
    simp only [complaints, operationComplaints, checks, Operation.checks]
    refine (decide_source hrs srs).bind fun _ => ?_
    split
    case isTrue =>
      refine (decide_amount (hops.writable hruns)).bind fun _ => ?_
      exact (decide_destination hrd srd).bind fun _ => .nil
    case isFalse => exact (decide_destination hrd srd).bind fun _ => .nil
  | .multiply, .rr rs rt => exact absurd rfl hi
  | .divide, .rr rs rt =>
    obtain ⟨hrs, hrt⟩ : IsToken rs ∧ IsToken rt := by
      simpa [Operands.registers] using tokens
    obtain ⟨srs, srt⟩ : ¬IsOverlong rs ∧ ¬IsOverlong rt := by
      simpa [Operands.registers] using short
    refine (decide_source hrs srs).bind fun _ => ?_
    -- The divisor is the second source, which has been found to be a register.
    refine (decide_source hrt srt).bind fun hsource => ?_
    exact (decide_divisor (source_eq_ok.1 hsource)).bind fun _ => .nil
  | .moveFrom a, .r rd =>
    have hrd := tokens rd List.mem_cons_self
    have srd := short rd List.mem_cons_self
    exact (decide_destination hrd srd).bind fun _ => .nil

end Instruction

/-- No other instruction is the product. -/
theorem Opcode.instruction_ne_multiply {op : Opcode} (h : op ≠ .mult) :
    op.instruction ≠ .multiply := by
  cases op <;> first | exact absurd rfl h | exact fun hmultiply => nomatch hmultiply

namespace Machine

/-- Whether an instruction fails with some words: they are reported after its announcement and
nothing else is, and the machine stays as it was. -/
structure FailsWith (m : Machine) (opcode operands words : String) : Prop where
  /-- the instruction fails -/
  result : (m.dispatch opcode operands).result = .ok .failed
  /-- the words are reported -/
  reports : Event.reports (m.dispatch opcode operands).events =
    [.instruction opcode operands, .error words]
  /-- the machine stays as it was -/
  machine : (m.dispatch opcode operands).machine = m

variable {m : Machine} {opcode operands : String}

/-- Where an instruction is not executed, nothing is reported while it is performed. -/
theorem Performs.reports_eq_nil {run : Run Failure Outcome} (h : m.Performs opcode operands run)
    (hrun : run.result ≠ .ok .executed) : Event.reports run.events = [] := by
  cases h with
  | unknown => rfl
  | refused => rfl
  | ignored => rfl
  | assigned => exact absurd rfl hrun
  | divided => exact absurd rfl hrun

/-- An instruction at fault fails with the words for its fault. -/
theorem HoldsWords.failsWith (hm : m.HoldsWords) {f : Fault}
    (h : (m.perform opcode operands).result = .error (.fault f)) :
    m.FailsWith opcode operands f.message := by
  have performed := performs hm opcode operands
  have unexecuted : (m.perform opcode operands).result ≠ .ok .executed := by simp [h]
  constructor
  · rw [result_dispatch, h]
    rfl
  · rw [reports_dispatch, performed.reports_eq_nil unexecuted, h]
    rfl
  · rw [machine_dispatch]
    exact (performed.unchanged unexecuted).1

theorem perform_of_unknown (m : Machine) (operands : String)
    (h : Opcode.ofText? opcode = none) :
    (m.perform opcode operands).result = .error (.fault (.unknownOpcode opcode)) := by
  simp only [perform, h]

/-- Instructions other than the product are executed if their checks come out well. -/
theorem HoldsWords.result_perform (hm : m.HoldsWords) {op : Opcode}
    (hop : op.instruction ≠ .multiply) {ops : Operands op.instruction.shape}
    (hops : Operands.parse op.instruction.shape op.text operands = .ok ops) :
    (m.perform op.text operands).result =
      (Check.verdicts m (op.instruction.checks ops)).map fun _ => .executed := by
  have outcome : op.instruction.outcome = .executed := by
    unfold Instruction.outcome
    split
    case _ h => exact absurd h hop
    case _ => rfl
  rw [(performs hm op.text operands).result_eq op.ofText?_text, hops, ok_bind, outcome]

/-- Instructions other than the product fail with the words for what their checks refuse. -/
theorem HoldsWords.failsWith_of_verdicts (hm : m.HoldsWords) {op : Opcode}
    (hop : op.instruction ≠ .multiply) {ops : Operands op.instruction.shape}
    (hops : ops.Written (Text.expandTabs operands.toList)) {f : Fault}
    (h : Check.verdicts m (op.instruction.checks ops) = .error (.fault f)) :
    m.FailsWith op.text operands f.message := by
  have result := hm.result_perform hop (Operands.parse_eq_ok_iff.2 hops)
  rw [h] at result
  exact hm.failsWith result

/-- **Which error an instruction gets.** On every machine that can be reached, take an instruction
other than the product, with operands in which no run of letters and digits is too long.

The instruction is answered. If its operands are not of its shape, it fails and is told so. If they
are, it fails with the words of the first complaint about them that applies, and if none applies it
is executed without an error. A name that no instruction has is told whatever the operands are. -/
theorem Reachable.dispatch_complaints {m : Machine} (hm : m.Reachable) {operands : String}
    (hruns : Text.RunsWithin 3500 operands.toList) :
    (∀ op : Opcode, op ≠ .mult →
      (∃ outcome, (m.dispatch op.text operands).result = .ok outcome) ∧
      ((∀ ops : Operands op.instruction.shape, ¬ops.Written (Text.expandTabs operands.toList)) →
        m.FailsWith op.text operands
          ("Malformed operands " ++ Text.quoted operands ++ " for " ++ op.text ++ ", expected " ++
            op.instruction.shape.hint)) ∧
      ∀ ops : Operands op.instruction.shape, ops.Written (Text.expandTabs operands.toList) →
        (∀ words, Complaint.First (op.instruction.complaints m ops) words →
          m.FailsWith op.text operands words) ∧
        ((∀ c ∈ op.instruction.complaints m ops, ¬c.applies) →
          (m.dispatch op.text operands).result = .ok .executed ∧
            Event.errors (m.dispatch op.text operands).events = [])) ∧
      ∀ opcode : String, Opcode.ofText? opcode = none →
        m.FailsWith opcode operands ("Unknown opcode " ++ Text.quoted opcode) := by
  have words := hm.holdsWords
  have expanded := hruns.expandTabs
  constructor
  · intro op hop
    refine ⟨?_, fun hwritten => ?_, fun ops hops => ?_⟩
    · exact (words.dispatch_answers_iff op.text operands).2
        (not_exceedsLimits_of_runsWithin hruns op.text)
    · have malformed : Operands.parse op.instruction.shape op.text operands = _ :=
        Operands.parse_of_not_written hwritten
          (Operands.not_hasOverlongLiteral_of_runsWithin expanded)
      have result := (performs words op.text operands).result_eq op.ofText?_text
      rw [malformed] at result
      exact words.failsWith result
    · have carried := Opcode.instruction_ne_multiply hop
      have decided := Instruction.decide_complaints m carried hops expanded
      constructor
      · intro told hfirst
        obtain ⟨f, hverdict, rfl⟩ := decided.fails told hfirst
        exact words.failsWith_of_verdicts carried hops hverdict
      · intro hnone
        have result := words.result_perform carried (Operands.parse_eq_ok_iff.2 hops)
        rw [decided.answers hnone] at result
        rw [words.errors_dispatch, result_dispatch, result]
        exact ⟨rfl, rfl⟩
  · intro opcode hopcode
    exact words.failsWith (perform_of_unknown m operands hopcode)

/-- A shift with an amount that is out of range and a destination that cannot be written: the amount
is looked at first. The same shift is executed when nothing is wrong with it. -/
theorem dispatch_complaints_amount :
    Text.RunsWithin 3500 "$zero,$t0,40".toList ∧ Text.RunsWithin 3500 "$t1,$t0,4".toList ∧
      zero.FailsWith "sll" "$zero,$t0,40" "Shift amount 40 out of range 0..31" ∧
      (zero.dispatch "sll" "$t1,$t0,4").result = .ok .executed := by
  have faulty : Text.RunsWithin 3500 "$zero,$t0,40".toList :=
    Text.runsWithin_of_length_le (by decide)
  have sound : Text.RunsWithin 3500 "$t1,$t0,4".toList :=
    Text.runsWithin_of_length_le (by decide)
  have known : ¬(Complaint.unknown "$t0").applies := not_not.2 ⟨8, rfl⟩
  have out : ¬(0 ≤ (40 : Int) ∧ (40 : Int) ≤ 31) := by decide
  have told : Complaint.First (Opcode.sll.instruction.complaints zero (.rri "$zero" "$t0" 40))
      (Complaint.amount 40).words :=
    .later known (.here out)
  have nothing : ∀ c ∈ Opcode.sll.instruction.complaints zero (.rri "$t1" "$t0" 4), ¬c.applies := by
    have listed : Opcode.sll.instruction.complaints zero (.rri "$t1" "$t0" 4) =
        [.unknown "$t0", .amount 4, .unknown "$t1", .alwaysZero "$t1"] := rfl
    rw [listed]
    simp only [List.forall_mem_cons, List.not_mem_nil, false_imp_iff, implies_true, and_true]
    have within : 0 ≤ (4 : Int) ∧ (4 : Int) ≤ 31 := by decide
    refine ⟨known, not_not.2 within, not_not.2 ⟨9, rfl⟩, ?_⟩
    rintro ⟨i, hi, hzero⟩
    have found : Bank.general.find "$t1" = .ok (some 9) := rfl
    obtain rfl := Option.some.inj (Except.ok.inj (found.symm.trans hi))
    exact absurd hzero (by decide)
  refine ⟨faulty, sound, ?_, ?_⟩
  · have answer := (Reachable.dispatch_complaints .zero faulty).1 .sll (by decide)
    exact (answer.2.2 (.rri "$zero" "$t0" 40) (Operands.read?_eq_ok_iff.1 rfl)).1 _ told
  · have answer := (Reachable.dispatch_complaints .zero sound).1 .sll (by decide)
    exact ((answer.2.2 (.rri "$t1" "$t0" 4) (Operands.read?_eq_ok_iff.1 rfl)).2 nothing).1

end Machine

end TinyMips
