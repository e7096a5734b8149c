import TinyMips.Event

/-!
# Runs

The result of letting a machine do something: the machine afterwards, what could be seen, and
how it ended. Runs are put one after the other by `Run.andThen`, which keeps all events and stops
at the first error.
-/

namespace TinyMips

/-- What a machine did. -/
structure Run (ε α : Type) where
  /-- the machine afterwards -/
  machine : Machine
  /-- what could be seen, in order -/
  events : List Event
  /-- the answer, or why there is none -/
  result : Except ε α

namespace Run

variable {ε α β : Type}

/-- Nothing happens. -/
def done (m : Machine) (a : α) : Run ε α :=
  { machine := m, events := [], result := .ok a }

/-- Events that come before a run. -/
def after (events : List Event) (run : Run ε α) : Run ε α :=
  { run with events := events ++ run.events }

/-- A run with its answer changed. -/
def map (f : α → β) (run : Run ε α) : Run ε β :=
  { machine := run.machine, events := run.events, result := run.result.map f }

/-- Goes on from where a run has ended, unless it has ended in an error. -/
def andThen (run : Run ε α) (next : Machine → α → Run ε β) : Run ε β :=
  match run.result with
  | .ok a => (next run.machine a).after run.events
  | .error e => { machine := run.machine, events := run.events, result := .error e }

@[simp] theorem done_andThen (m : Machine) (a : α) (next : Machine → α → Run ε β) :
    (done m a).andThen next = next m a := rfl

theorem andThen_done (run : Run ε α) : run.andThen done = run := by
  obtain ⟨m, events, result⟩ := run
  cases result <;> simp [andThen, done, after]

theorem andThen_assoc {γ : Type} (run : Run ε α) (f : Machine → α → Run ε β)
    (g : Machine → β → Run ε γ) :
    (run.andThen f).andThen g = run.andThen fun m a => (f m a).andThen g := by
  obtain ⟨m, events, result⟩ := run
  cases result with
  | error e => rfl
  | ok a =>
    simp only [andThen, after]
    cases (f m a).result <;> simp [List.append_assoc]

end Run

end TinyMips
