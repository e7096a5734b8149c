import TinyMips.Dispatch

/-!
# Execution

Running a program, line by line, to its end. A line that fails is counted and the next one is
run. The main statement is that the items of a program can be run in two parts
(`Machine.runItems_append`).
-/

namespace TinyMips

/-- What an outcome adds to the number of failures. -/
def Outcome.failures : Outcome → Nat
  | .failed => 1
  | _ => 0

namespace Machine

/-- Carries out a statement, and answers with the number of failures. -/
def runStatement (m : Machine) (s : Statement) : Run Halt Nat :=
  (m.dispatch s.opcode s.operands).map Outcome.failures

/-- Reports a line that cannot be read. -/
def rejectLine (m : Machine) (line : Malformed) : Run Halt Nat :=
  { machine := m, events := [.report (.error line.message)], result := .ok 1 }

/-- Runs a line of a program. -/
def runItem (m : Machine) : Item → Run Halt Nat
  | .statement s => m.runStatement s
  | .malformed line => (m.rejectLine line).after [.note (.malformed line)]

/-- Runs lines of a program, and answers with the number of failures. -/
def runItems (m : Machine) : List Item → Run Halt Nat
  | [] => .done m 0
  | item :: rest =>
    (m.runItem item).andThen fun m failures => (m.runItems rest).map (failures + ·)

/-- Runs a program, and answers with the number of failures. -/
def execute (m : Machine) (source : String) : Run Halt Nat :=
  m.runItems (Item.ofSource source)

end Machine

namespace Run

variable {ε α β γ : Type}

theorem map_map (run : Run ε α) (f : α → β) (g : β → γ) :
    (run.map f).map g = run.map (g ∘ f) := by
  obtain ⟨m, events, result⟩ := run
  cases result <;> rfl

theorem map_andThen (run : Run ε α) (f : α → β) (next : Machine → β → Run ε γ) :
    (run.map f).andThen next = run.andThen fun m a => next m (f a) := by
  obtain ⟨m, events, result⟩ := run
  cases result <;> rfl

theorem andThen_map (run : Run ε α) (next : Machine → α → Run ε β) (f : β → γ) :
    (run.andThen next).map f = run.andThen fun m a => (next m a).map f := by
  obtain ⟨m, events, result⟩ := run
  cases result <;> rfl

theorem map_id (run : Run ε α) : run.map (fun a => a) = run := by
  obtain ⟨m, events, result⟩ := run
  cases result <;> rfl

end Run

/-- The items of two lists, one list after the other. -/
theorem Machine.runItems_append (m : Machine) (a b : List Item) :
    m.runItems (a ++ b) =
      (m.runItems a).andThen fun m failures => (m.runItems b).map (failures + ·) := by
  induction a generalizing m with
  | nil =>
    simp only [List.nil_append, runItems, Run.done_andThen, Nat.zero_add]
    exact (Run.map_id _).symm
  | cons item rest ih =>
    simp only [List.cons_append, runItems, Run.andThen_assoc, Run.map_andThen]
    congr 1
    funext m failures
    rw [ih, Run.andThen_map]
    congr 1
    funext m later
    rw [Run.map_map]
    congr 1
    funext last
    exact (Nat.add_assoc _ _ _).symm

end TinyMips
