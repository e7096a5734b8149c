import Mathlib.Algebra.Order.BigOperators.Group.List
import Mathlib.Algebra.Order.Group.Nat
import TinyMips.Program
import TinyMips.Proofs.Entered

/-!
# What the exit code tells

A run of the program can end in several ways, and `Program.Exits` says which exit code stands for
which. The way to the end is cut into parts, each with lemmas of its own: whether the machine can be
started (`Program.Starts`, `Program.Rejects`), which lines are run (`Program.items?`), what becomes
of them, and whether the input breaks off before it has ended (`Program.BreaksOff`). An interruption
from outside may strike after any event, and what has been seen by then stays (`Program.seen`). The
main statement is that a run has the exit code that stands for its end, and no other
(`Program.exitCode_transcript_iff`).
-/

namespace TinyMips

/-- The settings that options make. -/
def Options.settings (options : Options) : Settings :=
  ({} : Settings).update options.patch

namespace Program

/-! ## Specification -/

/-- Whether a machine is one that the program starts with: the machine of zeros, or one with the
initial values of a file. -/
inductive Starts (settings : Settings) (disk : Disk) : Machine → Prop
  /-- no file of initial values is given -/
  | zero (hinit : settings.init? = none) : Starts settings disk .zero
  /-- the file that is given is accepted, and so are its values -/
  | loaded {path : String} {text : List Char} {values : InitialValues}
    (hinit : settings.init? = some path) (hread : disk.readText path = .ok text)
    (hvalues : InitialValues.ofText text = .ok values)
    (hstart : (Machine.start values).result = .ok ()) :
    Starts settings disk (Machine.start values).machine

/-- Whether the initial values are rejected. -/
inductive Rejects (settings : Settings) (disk : Disk) : Prop
  /-- a value is not what it should be -/
  | values {path : String} {text : List Char} {fault : InitialValues.Fault}
    (hinit : settings.init? = some path) (hread : disk.readText path = .ok text)
    (hvalues : InitialValues.ofText text = .error (.fault fault))
  /-- a register is unknown or cannot be written -/
  | registers {path : String} {text : List Char} {values : InitialValues} {fault : Fault}
    (hinit : settings.init? = some path) (hread : disk.readText path = .ok text)
    (hvalues : InitialValues.ofText text = .ok values)
    (hstart : (Machine.start values).result = .error (.fault fault))

/-- The lines that are run: those of the source, if it can be read, or else those that are
entered. -/
def items? (options : Options) (disk : Disk) (input : Input) : Option (List Item) :=
  match options.source? with
  | some path =>
    match disk.readText (FilePath.tidy path) with
    | .ok text => some (Item.ofSource (String.ofList text))
    | .error _ => none
  | none => some (Item.ofRecords 1 input.records)

/-- Whether lines are entered and the input is interrupted before the session has ended. -/
def BreaksOff (options : Options) (input : Input) : Prop :=
  options.source? = none ∧ input.BreaksOff

instance (options : Options) (input : Input) : Decidable (BreaksOff options input) :=
  inferInstanceAs (Decidable (_ ∧ _))

/-- Whether a run that starts with a machine and runs lines comes to a normal end: none of the lines
ends it, and its input does not break off. -/
structure EndsNormally (options : Options) (disk : Disk) (input : Input) (m : Machine)
    (items : List Item) : Prop where
  /-- the machine is started -/
  starts : Starts options.settings disk m
  /-- these lines are run -/
  supplied : items? options disk input = some items
  /-- all of them are answered -/
  answered : ∀ stage ∈ m.stages items, stage.fate.isAnswered
  /-- the input does not break off -/
  unbroken : ¬BreaksOff options input

/-- The exit codes that stand for the ends that runs can come to. A run may be interrupted from
outside after a number of its events. -/
inductive Exits (options : Options) (disk : Disk) (input : Input) : Option Nat → Nat → Prop
  /-- all lines are executed or are not to be executed -/
  | clean {m : Machine} {items : List Item} (h : EndsNormally options disk input m items)
    (hclean : ∀ stage ∈ m.stages items,
      stage.fate = .dispatched .executed ∨ stage.fate = .dispatched .ignored) :
    Exits options disk input none 0
  /-- the initial values are rejected -/
  | rejected (h : Rejects options.settings disk) : Exits options disk input none 2
  /-- a line fails or cannot be read -/
  | failing {m : Machine} {items : List Item} (h : EndsNormally options disk input m items)
    (hfailing : ∃ stage ∈ m.stages items,
      stage.fate = .dispatched .failed ∨ stage.fate = .malformed) :
    Exits options disk input none 2
  /-- the input breaks off when its lines have been answered -/
  | brokenOff {m : Machine} {items : List Item} (hm : Starts options.settings disk m)
    (hitems : items? options disk input = some items)
    (hanswered : ∀ stage ∈ m.stages items, stage.fate.isAnswered)
    (hbreaks : BreaksOff options input) : Exits options disk input none 3
  /-- the run is interrupted from outside -/
  | interrupted (n : Nat) : Exits options disk input (some n) 3
  /-- the initial values are not rejected, but are not accepted either -/
  | unstarted (hm : ∀ m, ¬Starts options.settings disk m)
    (hrejects : ¬Rejects options.settings disk) : Exits options disk input none 100
  /-- the source cannot be read -/
  | unreadable {m : Machine} (hm : Starts options.settings disk m)
    (hitems : items? options disk input = none) : Exits options disk input none 100
  /-- a line ends the run -/
  | halted {m : Machine} {items : List Item} (hm : Starts options.settings disk m)
    (hitems : items? options disk input = some items)
    (hhalted : ∃ stage ∈ m.stages items, ∃ halt, stage.fate = .halted halt) :
    Exits options disk input none 100

/-- The first of some events and as many of those that follow it as an interruption from outside
leaves time for. -/
def upTo : Option Nat → List Event → List Event
  | none, events => events
  | some n, events => events.take (n + 1)

section Runs

variable (options : Options) (disk : Disk) (input : Input) (isInteractive : Bool)

/-- A run up to the point where the registers may be listed. -/
def course : Run Verdict Nat :=
  (start options.settings disk).andThen fun m _ => work options disk input isInteractive m

/-- What can be seen of a run up to its last note, also if it is interrupted from outside. -/
def seen (interruption? : Option Nat) : List Event :=
  upTo interruption? (body options.settings disk (work options disk input isInteractive)).events

/-- All that can be seen of a run, also if it is interrupted from outside. -/
def transcript : Option Nat → Transcript
  | none => run options disk input isInteractive
  | some n =>
    .of options.settings (seen options disk input isInteractive (some n)) .interrupted

end Runs

variable {options : Options} {disk : Disk} {input : Input} {isInteractive : Bool} {m : Machine}
  {items : List Item}

/-! ## The start -/

/-- A text that cannot be read breaks the run. -/
theorem eq_broken_of_readText {path : String} {verdict : Verdict}
    (h : disk.readText path = .error verdict) : ∃ message, verdict = .broken (some message) := by
  rw [Disk.readText] at h
  split at h
  case _ fault _ =>
    obtain rfl := Except.error.inj h
    exact ⟨_, rfl⟩
  case _ bytes _ =>
    split at h
    case _ e _ =>
      obtain rfl := Except.error.inj h
      exact ⟨_, rfl⟩
    case _ => cases h

section Start

variable {settings : Settings} {path : String} {text : List Char} {values : InitialValues}

theorem start_of_init (hinit : settings.init? = some path) (disk : Disk) :
    (start settings disk).machine = (loadFile disk path).machine ∧
      (start settings disk).result = (loadFile disk path).result := by
  rw [start, hinit]
  exact ⟨rfl, rfl⟩

theorem loadFile_of_values (hread : disk.readText path = .ok text)
    (hvalues : InitialValues.ofText text = .ok values) :
    loadFile disk path = (Machine.start values).mapError .ofFailure := by
  rw [loadFile, hread]
  simp only [hvalues]

theorem loadFile_of_error {e : InitialValues.Error} (hread : disk.readText path = .ok text)
    (hvalues : InitialValues.ofText text = .error e) :
    loadFile disk path = .fail (.ofInitialValues e) := by
  rw [loadFile, hread]
  simp only [hvalues]

theorem loadFile_of_unreadable {verdict : Verdict} (hread : disk.readText path = .error verdict) :
    loadFile disk path = .fail verdict := by
  rw [loadFile, hread]

theorem Starts.result_start (h : Starts settings disk m) :
    (start settings disk).machine = m ∧ (start settings disk).result = .ok () := by
  cases h with
  | zero hinit =>
    rw [start, hinit]
    exact ⟨rfl, rfl⟩
  | loaded hinit hread hvalues hstart =>
    obtain ⟨machine, result⟩ := start_of_init hinit disk
    rw [machine, result, loadFile_of_values hread hvalues, Run.mapError, hstart]
    exact ⟨rfl, rfl⟩

theorem Rejects.result_start (h : Rejects settings disk) :
    ∃ message, (start settings disk).result = .error (.halted message) := by
  cases h with
  | values hinit hread hvalues =>
    rw [(start_of_init hinit disk).2, loadFile_of_error hread hvalues]
    exact ⟨_, rfl⟩
  | registers hinit hread hvalues hstart =>
    rw [(start_of_init hinit disk).2, loadFile_of_values hread hvalues, Run.mapError, hstart]
    exact ⟨_, rfl⟩

/-- Where the machine is not started although no initial values are rejected, something else has
come in the way. -/
theorem result_start_of_not_starts (hm : ∀ m, ¬Starts settings disk m)
    (hrejects : ¬Rejects settings disk) :
    ∃ message?, (start settings disk).result = .error (.broken message?) := by
  cases hinit : settings.init? with
  | none => exact absurd (.zero hinit) (hm _)
  | some path =>
    rw [(start_of_init hinit disk).2]
    cases hread : disk.readText path with
    | error verdict =>
      obtain ⟨message, rfl⟩ := eq_broken_of_readText hread
      rw [loadFile_of_unreadable hread]
      exact ⟨_, rfl⟩
    | ok text =>
      cases hvalues : InitialValues.ofText text with
      | error e =>
        rw [loadFile_of_error hread hvalues]
        cases e with
        | fault fault => exact absurd (.values hinit hread hvalues) hrejects
        | numeral e => exact ⟨_, rfl⟩
        | tooDeep step => exact ⟨_, rfl⟩
        | malformed => exact ⟨_, rfl⟩
      | ok values =>
        rw [loadFile_of_values hread hvalues]
        cases hstart : (Machine.start values).result with
        | ok _ => exact absurd (.loaded hinit hread hvalues hstart) (hm _)
        | error failure =>
          rw [Run.mapError, hstart]
          cases failure with
          | fault fault => exact absurd (.registers hinit hread hvalues hstart) hrejects
          | numeral e => exact ⟨_, rfl⟩

theorem Starts.holdsWords (h : Starts settings disk m) : m.HoldsWords := by
  cases h with
  | zero => exact Machine.holdsWords_zero
  | loaded _ _ hvalues hstart => exact (Machine.Reachable.start hvalues hstart).holdsWords

end Start

/-! ## The lines -/

theorem machine_work (hitems : items? options disk input = some items) (m : Machine) :
    (work options disk input isInteractive m).machine = (m.runItems items).machine := by
  unfold items? at hitems
  unfold work
  split at hitems
  case _ path hsource =>
    rw [hsource]
    split at hitems
    case _ text hread =>
      obtain rfl := Option.some.inj hitems
      simp only [runFile, hread]
      rfl
    case _ => cases hitems
  case _ hsource =>
    obtain rfl := Option.some.inj hitems
    rw [hsource]
    exact m.machine_session input isInteractive

/-- The lines come to the end that they come to on their own, unless the input breaks off. -/
theorem result_work (hitems : items? options disk input = some items) (m : Machine) :
    (work options disk input isInteractive m).result =
      ((m.runItems items).result >>= fun failures =>
        if BreaksOff options input then .error .interrupted else .ok failures).mapError
          .ofHalt := by
  unfold items? at hitems
  unfold work
  split at hitems
  case _ path hsource =>
    rw [hsource]
    split at hitems
    case _ text hread =>
      obtain rfl := Option.some.inj hitems
      have unbroken : ¬BreaksOff options input := fun h => by simp [BreaksOff, hsource] at h
      simp only [runFile, hread, unbroken, ↓reduceIte]
      have same := bind_pure (m.execute (String.ofList text)).result
      exact congrArg (Except.mapError Verdict.ofHalt) same.symm
    case _ => cases hitems
  case _ hsource =>
    obtain rfl := Option.some.inj hitems
    rw [hsource]
    simp only [BreaksOff, hsource, true_and]
    exact congrArg (Except.mapError Verdict.ofHalt) (m.result_session input isInteractive)

/-- A source that cannot be read breaks the run. -/
theorem result_work_of_unreadable (hitems : items? options disk input = none)
    (isInteractive : Bool) (m : Machine) :
    ∃ message, (work options disk input isInteractive m).result =
      .error (.broken (some message)) := by
  unfold items? at hitems
  unfold work
  split at hitems
  case _ path hsource =>
    rw [hsource]
    split at hitems
    case _ => cases hitems
    case _ verdict hread =>
      obtain ⟨message, rfl⟩ := eq_broken_of_readText hread
      simp only [runFile, hread]
      exact ⟨message, rfl⟩
  case _ => cases hitems

/-! ## The course of a run -/

theorem course_of_starts (h : Starts options.settings disk m) :
    course options disk input isInteractive =
      (work options disk input isInteractive m).after (start options.settings disk).events := by
  obtain ⟨rfl, result⟩ := h.result_start
  exact Run.andThen_of_ok result

theorem course_of_error {v : Verdict} (h : (start options.settings disk).result = .error v)
    (input : Input) (isInteractive : Bool) :
    (course options disk input isInteractive).result = .error v ∧
      (course options disk input isInteractive).events =
        (start options.settings disk).events := by
  rw [course, Run.andThen_of_error h]
  exact ⟨rfl, rfl⟩

/-- Lines that are all answered come to their end. -/
theorem result_runItems_of_answered
    (h : ∀ stage ∈ m.stages items, stage.fate.isAnswered) :
    (m.runItems items).result = .ok ((m.stages items).map (·.fate.failures)).sum := by
  cases hresult : (m.runItems items).result with
  | ok failures => rw [(Machine.stages_of_result_eq_ok hresult).2]
  | error halt =>
    obtain ⟨stage, hstage, hfate⟩ := Machine.exists_halted_of_result_eq_error hresult
    have answered := h stage hstage
    rw [hfate] at answered
    cases answered

/-- A line that ends the run ends it at a numeral. -/
theorem result_runItems_of_halted
    (h : ∃ stage ∈ m.stages items, ∃ halt, stage.fate = .halted halt) :
    ∃ e, (m.runItems items).result = .error (.numeral e) := by
  obtain ⟨stage, hstage, halt, hfate⟩ := h
  cases hresult : (m.runItems items).result with
  | ok failures =>
    have answered := Machine.isAnswered_of_result_eq_ok hresult stage hstage
    rw [hfate] at answered
    cases answered
  | error first =>
    cases first with
    | numeral e => exact ⟨e, rfl⟩
    | interrupted =>
      obtain ⟨other, hother, hinterrupted⟩ := Machine.exists_halted_of_result_eq_error hresult
      have uninterrupted : ∀ stage ∈ m.stages items, stage.fate ≠ .halted .interrupted :=
        Machine.forall_mem_stages (I := fun _ => True) (fun _ _ _ => trivial)
          (fun m _ item _ => m.fate_ne_interrupted item) trivial
      exact absurd hinterrupted (uninterrupted other hother)

/-- A run that comes to a normal end leaves the machine that its lines leave, and answers with the
number of failures among them. -/
theorem EndsNormally.course_eq (h : EndsNormally options disk input m items) :
    (course options disk input isInteractive).machine = (m.runItems items).machine ∧
      (course options disk input isInteractive).result =
        .ok ((m.stages items).map (·.fate.failures)).sum := by
  rw [course_of_starts h.starts]
  refine ⟨machine_work h.supplied m, ?_⟩
  change (work options disk input isInteractive m).result = _
  rw [result_work h.supplied, result_runItems_of_answered h.answered, ok_bind, if_neg h.unbroken]
  rfl

theorem verdict_of_ok {run : Run Verdict Nat} {failures : Nat} (h : run.result = .ok failures) :
    verdict run = .finished failures := by
  rw [verdict, h]

theorem verdict_of_error {run : Run Verdict Nat} {v : Verdict} (h : run.result = .error v) :
    verdict run = v := by
  rw [verdict, h]

/-- No line of a run that comes to a normal end has failed if all are executed or are not to be
executed. -/
theorem EndsNormally.sum_failures_eq_zero_iff (h : EndsNormally options disk input m items) :
    ((m.stages items).map (·.fate.failures)).sum = 0 ↔ ∀ stage ∈ m.stages items,
      stage.fate = .dispatched .executed ∨ stage.fate = .dispatched .ignored := by
  rw [List.sum_eq_zero_iff, List.forall_mem_map]
  exact forall₂_congr fun stage hstage => Fate.failures_eq_zero_iff (h.answered stage hstage)

/-! ## Exit codes -/

/-- The exit code that stands for the end of a run is that of its course, and a run whose course is
not ended by an error comes to a normal end. -/
theorem Exits.exitCode_course {code : Nat} (h : Exits options disk input none code)
    (isInteractive : Bool) :
    let course := course options disk input isInteractive
    (verdict course).exitCode = code ∧
      ((∃ m items, EndsNormally options disk input m items) ∨ ∃ v, course.result = .error v) := by
  intro course
  have of_error : ∀ {v : Verdict}, course.result = .error v → v.exitCode = code →
      (verdict course).exitCode = code ∧
        ((∃ m items, EndsNormally options disk input m items) ∨ ∃ v, course.result = .error v) :=
    fun hresult hcode => ⟨by rw [verdict_of_error hresult, hcode], .inr ⟨_, hresult⟩⟩
  cases h with
  | @clean m items h hclean =>
    refine ⟨?_, .inl ⟨m, items, h⟩⟩
    rw [verdict_of_ok h.course_eq.2, h.sum_failures_eq_zero_iff.2 hclean]
    rfl
  | @failing m items h hfailing =>
    refine ⟨?_, .inl ⟨m, items, h⟩⟩
    have some_failed : ((m.stages items).map (·.fate.failures)).sum ≠ 0 := fun hzero => by
      obtain ⟨stage, hstage, hfate⟩ := hfailing
      have clean := h.sum_failures_eq_zero_iff.1 hzero stage hstage
      rcases hfate with hfate | hfate <;> simp [hfate] at clean
    obtain ⟨count, hcount⟩ := Nat.exists_eq_succ_of_ne_zero some_failed
    rw [verdict_of_ok h.course_eq.2, hcount]
    rfl
  | rejected h =>
    obtain ⟨message, hresult⟩ := h.result_start
    exact of_error (course_of_error hresult input isInteractive).1 rfl
  | brokenOff hm hitems hanswered hbreaks =>
    have hresult : course.result = .error .interrupted := by
      change (Program.course options disk input isInteractive).result = _
      rw [course_of_starts hm]
      change (work options disk input isInteractive _).result = _
      rw [result_work hitems, result_runItems_of_answered hanswered, ok_bind, if_pos hbreaks]
      rfl
    exact of_error hresult rfl
  | unstarted hm hrejects =>
    obtain ⟨message?, hresult⟩ := result_start_of_not_starts hm hrejects
    exact of_error (course_of_error hresult input isInteractive).1 rfl
  | @unreadable m hm hitems =>
    obtain ⟨message, hwork⟩ := result_work_of_unreadable hitems isInteractive m
    have hresult : course.result = .error (.broken (some message)) := by
      change (Program.course options disk input isInteractive).result = _
      rw [course_of_starts hm]
      exact hwork
    exact of_error hresult rfl
  | halted hm hitems hhalted =>
    obtain ⟨e, hrun⟩ := result_runItems_of_halted hhalted
    have hresult : course.result = .error (.ofNumeral e) := by
      change (Program.course options disk input isInteractive).result = _
      rw [course_of_starts hm]
      change (work options disk input isInteractive _).result = _
      rw [result_work hitems, hrun, error_bind]
      rfl
    exact of_error hresult rfl

/-- There is an exit code for runs that come to a normal end. -/
theorem EndsNormally.exists_exits (h : EndsNormally options disk input m items) :
    ∃ code, Exits options disk input none code := by
  by_cases hclean : ∀ stage ∈ m.stages items, stage.fate.failures = 0
  case pos =>
    refine ⟨0, .clean h fun stage hstage => ?_⟩
    exact (Fate.failures_eq_zero_iff (h.answered stage hstage)).1 (hclean stage hstage)
  case neg =>
    simp only [not_forall, exists_prop] at hclean
    obtain ⟨stage, hstage, hfate⟩ := hclean
    exact ⟨2, .failing h ⟨stage, hstage, Fate.eq_of_failures_ne_zero hfate⟩⟩

/-- There is an exit code for runs that start with a machine. -/
theorem Starts.exists_exits (hm : Starts options.settings disk m) :
    ∃ code, Exits options disk input none code := by
  cases hitems : items? options disk input with
  | none => exact ⟨100, .unreadable hm hitems⟩
  | some items =>
    by_cases hanswered : ∀ stage ∈ m.stages items, stage.fate.isAnswered
    case pos =>
      by_cases hbreaks : BreaksOff options input
      · exact ⟨3, .brokenOff hm hitems hanswered hbreaks⟩
      · exact EndsNormally.exists_exits ⟨hm, hitems, hanswered, hbreaks⟩
    case neg =>
      simp only [not_forall, exists_prop] at hanswered
      obtain ⟨stage, hstage, hfate⟩ := hanswered
      exact ⟨100, .halted hm hitems ⟨stage, hstage, Fate.exists_eq_halted hfate⟩⟩

/-- There is an exit code for every run. -/
theorem exists_exits (options : Options) (disk : Disk) (input : Input)
    (interruption? : Option Nat) : ∃ code, Exits options disk input interruption? code := by
  cases interruption? with
  | some n => exact ⟨3, .interrupted n⟩
  | none =>
    by_cases hm : ∃ m, Starts options.settings disk m
    case pos =>
      obtain ⟨m, hm⟩ := hm
      exact hm.exists_exits
    case neg =>
      by_cases hrejects : Rejects options.settings disk
      · exact ⟨2, .rejected hrejects⟩
      · exact ⟨100, .unstarted (not_exists.1 hm) hrejects⟩

/-- Listing the registers does not change how a run ends. -/
theorem result_body (options : Options) (disk : Disk) (input : Input) (isInteractive : Bool) :
    (body options.settings disk (work options disk input isInteractive)).result =
      (course options disk input isInteractive).result := by
  change ((course options disk input isInteractive).andThen (finish options.settings)).result = _
  rw [Run.result_andThen]
  exact bind_pure _

/-- The exit code of a run is the one that stands for its end. -/
theorem Exits.exitCode_transcript {interruption? : Option Nat} {code : Nat}
    (h : Exits options disk input interruption? code) (isInteractive : Bool) :
    (transcript options disk input isInteractive interruption?).exitCode = code := by
  cases interruption? with
  | none =>
    rw [← (h.exitCode_course isInteractive).1, verdict, ← result_body]
    rfl
  | some n =>
    cases h
    rfl

/-- A run has the exit code that stands for its end, and no other. -/
theorem exitCode_transcript_iff (options : Options) (disk : Disk) (input : Input)
    (isInteractive : Bool) (interruption? : Option Nat) (code : Nat) :
    (transcript options disk input isInteractive interruption?).exitCode = code ↔
      Exits options disk input interruption? code := by
  constructor
  · rintro rfl
    obtain ⟨code, hcode⟩ := exists_exits options disk input interruption?
    rw [hcode.exitCode_transcript isInteractive]
    exact hcode
  · exact fun h => h.exitCode_transcript isInteractive

end Program

end TinyMips
