import TinyMips.Execution

/-!
# Sessions

Running lines as they are entered. Besides the lines of a program there are the commands `quit`
and `exit`, which end the session, and `regs`, which lists the registers.
-/

namespace TinyMips

/-- How an input comes to its end. -/
inductive Ending where
  /-- no line is left -/
  | exhausted
  /-- the next line is waited for in vain -/
  | interrupted
  deriving DecidableEq, Repr

/-- The lines that can be read, and what happens after them. -/
structure Input where
  /-- the lines, each with its line feed if it has one -/
  records : List (List Char)
  /-- what comes after the lines -/
  ending : Ending

namespace Input

/-- The input that consists of a text. -/
def ofText (text : String) : Input :=
  { records := Text.records text.toList, ending := .exhausted }

/-- The input that is interrupted after `n` lines, unless it has ended before. -/
def interruptAfter (input : Input) (n : Nat) : Input :=
  if n ≤ input.records.length then { records := input.records.take n, ending := .interrupted }
  else input

end Input

/-- What a line of a session asks for. -/
inductive Command where
  /-- the end of the session -/
  | quit
  /-- a list of all registers -/
  | list
  /-- a line of a program -/
  | run
  deriving DecidableEq, Repr

/-- The command that a line gives, blanks around it aside. -/
def Command.ofLine (text : List Char) : Command :=
  let word := String.ofList (Text.strip text)
  if word = "quit" ∨ word = "exit" then .quit
  else if word = "regs" then .list
  else .run

namespace Machine

/-- Lists all registers. -/
def listRegisters (m : Machine) : List Event :=
  [.report (.registers m.toList)]

/-- Runs a line of a program that has been entered. -/
def runLine (m : Machine) (line : Int) (text : List Char) : Run Halt Nat :=
  match Statement.ofLine? line text with
  | .ok none => .done m 0
  | .ok (some s) => m.runStatement s
  | .error malformed => m.rejectLine malformed

/-- Answers a line of a session; there is no answer if the session ends with it. -/
def answer? (m : Machine) (line : Int) (text : List Char) : Option (Run Halt Nat) :=
  match Command.ofLine text with
  | .quit => none
  | .list => some ((Run.done m 0).after m.listRegisters)
  | .run => some (m.runLine line text)

/-- What is shown before a line is read. -/
def invitation (isInteractive : Bool) : List Event :=
  if isInteractive then [.report .prompt] else []

/-- A session on lines that are numbered from `line`, which answers with the number of
failures. -/
def sessionFrom (m : Machine) (isInteractive : Bool) (ending : Ending) (line : Int) :
    List (List Char) → Run Halt Nat
  | [] =>
    match ending with
    | .exhausted => (Run.done m 0).after (invitation isInteractive)
    | .interrupted =>
      { machine := m, events := invitation isInteractive, result := .error .interrupted }
  | text :: rest =>
    let run : Run Halt Nat :=
      match m.answer? line text with
      | none => .done m 0
      | some run => run.andThen fun m failures =>
        (m.sessionFrom isInteractive ending (line + 1) rest).map (failures + ·)
    run.after (invitation isInteractive)

/-- A session, which answers with the number of failures. -/
def session (m : Machine) (input : Input) (isInteractive : Bool) : Run Halt Nat :=
  m.sessionFrom isInteractive input.ending 1 input.records

end Machine

end TinyMips
