import Mathlib.Algebra.GroupWithZero.Nat
import TinyMips.Proofs.Atomicity

/-!
# The stages of a run

A program is run line by line, and its run is what happens to each of its lines. `Machine.stages`
takes a run apart: it lists the lines that are run, each with what became of it and with what could
be seen of it. The main statements are that the events of a run are those of its stages
(`Machine.events_runItems`), that a run which comes to its end has a stage for each line and counts
the failures among them (`Machine.stages_of_result_eq_ok`), and that a program in two parts has the
stages of both (`Machine.stages_append`).
-/

namespace TinyMips

/-- What became of a line of a program. -/
inductive Fate where
  /-- it could not be read -/
  | malformed
  /-- it was an instruction, which ended so -/
  | dispatched (outcome : Outcome)
  /-- it ended the run -/
  | halted (halt : Halt)
  deriving DecidableEq, Repr

namespace Fate

/-- The fate of an instruction that ended so. -/
def ofResult : Except Halt Outcome → Fate
  | .ok outcome => .dispatched outcome
  | .error halt => .halted halt

/-- What the fate of a line adds to the number of failures. -/
def failures : Fate → Nat
  | .malformed => 1
  | .dispatched outcome => outcome.failures
  | .halted _ => 0

/-- How running a line ends that has a fate. -/
def result : Fate → Except Halt Nat
  | .halted halt => .error halt
  | fate => .ok fate.failures

/-- Whether the run goes on after a line of this fate. -/
def isAnswered : Fate → Bool
  | .halted _ => false
  | _ => true

theorem isAnswered_of_result {fate : Fate} {count : Nat} (h : fate.result = .ok count) :
    fate.isAnswered := by
  cases fate with
  | halted halt => cases h
  | malformed => rfl
  | dispatched outcome => rfl

theorem eq_halted_of_result {fate : Fate} {halt : Halt} (h : fate.result = .error halt) :
    fate = .halted halt := by
  cases fate with
  | halted halt' => exact congrArg _ (Except.error.inj h)
  | malformed => cases h
  | dispatched outcome => cases h

/-- A line that is answered has not failed if it was executed or is not to be executed. -/
theorem failures_eq_zero_iff {fate : Fate} (h : fate.isAnswered) :
    fate.failures = 0 ↔ fate = .dispatched .executed ∨ fate = .dispatched .ignored := by
  match fate with
  | .halted halt => cases h
  | .malformed => simp [failures]
  | .dispatched .executed => simp [failures, Outcome.failures]
  | .dispatched .ignored => simp [failures, Outcome.failures]
  | .dispatched .failed => simp [failures, Outcome.failures]

theorem eq_of_failures_ne_zero {fate : Fate} (h : fate.failures ≠ 0) :
    fate = .dispatched .failed ∨ fate = .malformed := by
  match fate with
  | .halted halt => exact absurd rfl h
  | .malformed => exact .inr rfl
  | .dispatched .executed => exact absurd rfl h
  | .dispatched .ignored => exact absurd rfl h
  | .dispatched .failed => exact .inl rfl

theorem exists_eq_halted {fate : Fate} (h : ¬fate.isAnswered) : ∃ halt, fate = .halted halt := by
  cases fate with
  | halted halt => exact ⟨halt, rfl⟩
  | malformed => exact absurd rfl h
  | dispatched outcome => exact absurd rfl h

theorem failures_of_result {fate : Fate} {count : Nat} (h : fate.result = .ok count) :
    fate.failures = count := by
  cases fate with
  | halted halt => cases h
  | malformed => exact Except.ok.inj h
  | dispatched outcome => exact Except.ok.inj h

end Fate

/-- A line of a program as it was run. -/
structure Stage where
  /-- what the line holds -/
  item : Item
  /-- what became of it -/
  fate : Fate
  /-- what could be seen of it -/
  events : List Event

namespace Machine

/-- What becomes of a line of a program. -/
def fate (m : Machine) : Item → Fate
  | .malformed _ => .malformed
  | .statement s => .ofResult (m.dispatch s.opcode s.operands).result

/-- A line of a program as it is run. -/
def stage (m : Machine) (item : Item) : Stage :=
  { item, fate := m.fate item, events := (m.runItem item).events }

/-- The lines of a program as they are run, up to one that ends the run. -/
def stages (m : Machine) : List Item → List Stage
  | [] => []
  | item :: rest =>
    match (m.fate item).result with
    | .ok _ => m.stage item :: (m.runItem item).machine.stages rest
    | .error _ => [m.stage item]

variable {m : Machine} {item : Item}

theorem result_runItem (m : Machine) (item : Item) :
    (m.runItem item).result = (m.fate item).result := by
  cases item with
  | malformed line => rfl
  | statement s =>
    change (m.dispatch s.opcode s.operands).result.map Outcome.failures = _
    rw [fate]
    cases (m.dispatch s.opcode s.operands).result with
    | ok outcome => rfl
    | error halt => rfl

theorem stages_cons_of_ok {count : Nat} (h : (m.runItem item).result = .ok count)
    (rest : List Item) :
    m.stages (item :: rest) = m.stage item :: (m.runItem item).machine.stages rest := by
  rw [result_runItem] at h
  rw [stages, h]

theorem stages_cons_of_error {halt : Halt} (h : (m.runItem item).result = .error halt)
    (rest : List Item) : m.stages (item :: rest) = [m.stage item] := by
  rw [result_runItem] at h
  rw [stages, h]

/-- What holds of every line that is run on a machine of some kind holds of the stages of a run, if
running a line keeps the machine of that kind. -/
theorem forall_mem_stages {I : Machine → Prop} {P : Stage → Prop} {items : List Item}
    (hI : ∀ m item, I m → I (m.runItem item).machine)
    (hP : ∀ m, I m → ∀ item ∈ items, P (m.stage item)) (hm : I m) :
    ∀ stage ∈ m.stages items, P stage := by
  induction items generalizing m with
  | nil => exact fun _ hstage => absurd hstage List.not_mem_nil
  | cons item rest ih =>
    have first : P (m.stage item) := hP m hm item List.mem_cons_self
    rw [stages]
    split
    case _ =>
      have later := ih (fun m hm other hother => hP m hm other (List.mem_cons_of_mem item hother))
        (hI m item hm)
      exact List.forall_mem_cons.2 ⟨first, later⟩
    case _ => exact List.forall_mem_singleton.2 first

/-- The stages of a run are stages of its lines. -/
theorem item_mem_of_mem_stages {items : List Item} :
    ∀ stage ∈ m.stages items, stage.item ∈ items := by
  have keeps : ∀ (m : Machine) (item : Item), True → True := fun _ _ h => h
  exact forall_mem_stages keeps (fun _ _ _ hitem => hitem) trivial

/-- What can be seen of a run is what can be seen of its stages. -/
theorem events_runItems (m : Machine) (items : List Item) :
    (m.runItems items).events = (m.stages items).flatMap Stage.events := by
  induction items generalizing m with
  | nil => rfl
  | cons item rest ih =>
    rw [runItems]
    cases h : (m.runItem item).result with
    | ok count =>
      rw [Run.andThen_of_ok h, stages_cons_of_ok h, List.flatMap_cons, ← ih]
      rfl
    | error halt =>
      rw [Run.andThen_of_error h, stages_cons_of_error h, List.flatMap_singleton]
      rfl

/-- A run that comes to its end has a stage for each line, and its answer counts the failures. -/
theorem stages_of_result_eq_ok {items : List Item} {failures : Nat}
    (h : (m.runItems items).result = .ok failures) :
    (m.stages items).map Stage.item = items ∧
      ((m.stages items).map (·.fate.failures)).sum = failures := by
  induction items generalizing m failures with
  | nil => exact ⟨rfl, Except.ok.inj h⟩
  | cons item rest ih =>
    obtain ⟨count, hcount, hrest⟩ := Run.result_andThen_eq_ok.1 h
    obtain ⟨later, hlater, hsum⟩ := Run.result_map_eq_ok.1 hrest
    obtain ⟨items_eq, sum_eq⟩ := ih hlater
    have first : (m.fate item).failures = count :=
      Fate.failures_of_result ((result_runItem m item).symm.trans hcount)
    rw [stages_cons_of_ok hcount, List.map_cons, List.map_cons, List.sum_cons, items_eq, sum_eq]
    refine ⟨rfl, ?_⟩
    rw [← hsum, ← first]
    rfl

/-- All lines of a run that comes to its end are answered. -/
theorem isAnswered_of_result_eq_ok {items : List Item} {failures : Nat}
    (h : (m.runItems items).result = .ok failures) :
    ∀ stage ∈ m.stages items, stage.fate.isAnswered := by
  induction items generalizing m failures with
  | nil => exact fun _ hstage => absurd hstage List.not_mem_nil
  | cons item rest ih =>
    obtain ⟨count, hcount, hrest⟩ := Run.result_andThen_eq_ok.1 h
    obtain ⟨later, hlater, -⟩ := Run.result_map_eq_ok.1 hrest
    rw [stages_cons_of_ok hcount]
    rw [result_runItem] at hcount
    exact List.forall_mem_cons.2 ⟨Fate.isAnswered_of_result hcount, ih hlater⟩

/-- A run that does not come to its end has a line that ends it. -/
theorem exists_halted_of_result_eq_error {items : List Item} {halt : Halt}
    (h : (m.runItems items).result = .error halt) :
    ∃ stage ∈ m.stages items, stage.fate = .halted halt := by
  induction items generalizing m with
  | nil => cases h
  | cons item rest ih =>
    cases hitem : (m.runItem item).result with
    | error first =>
      rw [runItems, Run.andThen_of_error hitem] at h
      rw [stages_cons_of_error hitem]
      obtain rfl := Except.error.inj h
      rw [result_runItem] at hitem
      exact ⟨_, List.mem_singleton_self _, Fate.eq_halted_of_result hitem⟩
    | ok count =>
      rw [runItems_cons_of_ok hitem] at h
      rw [stages_cons_of_ok hitem]
      obtain ⟨stage, hstage, hfate⟩ := ih (Run.result_map_eq_error.1 h)
      exact ⟨stage, List.mem_cons_of_mem _ hstage, hfate⟩

/-- A line does not interrupt a run. -/
theorem fate_ne_interrupted (m : Machine) (item : Item) : m.fate item ≠ .halted .interrupted := by
  cases item with
  | malformed line => simp [fate]
  | statement s =>
    rw [fate, result_dispatch]
    match (m.perform s.opcode s.operands).result with
    | .ok outcome => simp [settle, Fate.ofResult]
    | .error (.fault f) => simp [settle, Fate.ofResult]
    | .error (.numeral e) => simp [settle, Fate.ofResult]

/-- The stages of a program in two parts are those of the first and then those of the second. -/
theorem stages_append {before : List Item} {failures : Nat}
    (h : (m.runItems before).result = .ok failures) (after : List Item) :
    m.stages (before ++ after) =
      m.stages before ++ (m.runItems before).machine.stages after := by
  induction before generalizing m failures with
  | nil => rfl
  | cons item rest ih =>
    obtain ⟨count, hcount, hrest⟩ := Run.result_andThen_eq_ok.1 h
    obtain ⟨later, hlater, -⟩ := Run.result_map_eq_ok.1 hrest
    rw [List.cons_append, stages_cons_of_ok hcount, stages_cons_of_ok hcount, ih hlater, runItems,
      Run.andThen_of_ok hcount]
    rfl

/-- A line that is not executed leaves the machine as it was. -/
theorem HoldsWords.machine_runItem (hm : m.HoldsWords)
    (h : m.fate item ≠ .dispatched .executed) : (m.runItem item).machine = m := by
  cases item with
  | malformed line => rfl
  | statement s =>
    have notExecuted : (m.dispatch s.opcode s.operands).result ≠ .ok .executed := fun hrun =>
      h (by rw [fate, hrun, Fate.ofResult])
    rw [result_dispatch, ne_eq, settle_eq_executed] at notExecuted
    change (m.dispatch s.opcode s.operands).machine = m
    rw [machine_dispatch]
    exact ((performs hm s.opcode s.operands).unchanged notExecuted).1

end Machine

end TinyMips
