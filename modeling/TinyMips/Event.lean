import TinyMips.Instruction
import TinyMips.Statement
import TinyMips.Table

/-!
# Events

What a run lets be seen, in order: reports, which go to the output, and notes, which go to the
log. The main statement is that a note takes one line of the log unless its words break it
(`Note.lines_eq_singleton`).
-/

namespace TinyMips

/-! ## Reports -/

/-- Something that is shown on the output. -/
inductive Report where
  /-- an instruction that is about to be carried out -/
  | instruction (opcode operands : String)
  /-- registers that were written -/
  | changes (list : List Change)
  /-- something that went wrong -/
  | error (message : String)
  /-- registers with their values -/
  | registers (list : List (String × Int))
  /-- an invitation to enter a line -/
  | prompt
  deriving DecidableEq, Repr

namespace Report

/-- The table of registers that were written. -/
def changeTable (list : List Change) : Table where
  headings := ["Reg Name", "Old Value", "New Value"]
  rows := list.map fun change => (change.register, [change.old, change.new])

/-- The table of registers with their values. -/
def registerTable (list : List (String × Int)) : Table where
  headings := ["Reg Name", "Value"]
  rows := list.map fun (name, v) => (name, [v])

/-- Puts a line feed after each line. -/
def ofLines (lines : List (List Char)) : List Char :=
  lines.flatMap (· ++ ['\n'])

/-- The text of a report. -/
def render (layout : Layout) : Report → List Char
  | .instruction opcode operands =>
    ofLines [[], "INSTRUCTION: ".toList ++ opcode.toList ++ " ".toList ++ operands.toList]
  | .changes list => ofLines ((changeTable list).lines layout)
  | .error message => ofLines ["[ERR]: ".toList ++ message.toList]
  | .registers list => ofLines ((registerTable list).lines layout)
  | .prompt => "mipsi> ".toList

/-- The table of a report, if it has one. -/
def table? : Report → Option Table
  | .changes list => some (changeTable list)
  | .registers list => some (registerTable list)
  | _ => none

/-- The text of a report, or why its table is not drawn. -/
def draw (layout : Layout) (report : Report) : Except Table.Fault (List Char) :=
  match report.table?.bind (Table.fault? layout) with
  | none => .ok (report.render layout)
  | some fault => .error fault

end Report

/-! ## Notes -/

/-- How important a note is. -/
inductive Level where
  | debug
  | info
  | warning
  | error
  deriving DecidableEq, Repr

namespace Level

/-- The name of a level. -/
def name : Level → String
  | .debug => "DEBUG"
  | .info => "INFO"
  | .warning => "WARNING"
  | .error => "ERROR"

/-- All levels. -/
def all : List Level := [.debug, .info, .warning, .error]

/-- Whether a line of the log starts with the name of a level, and a colon after it. -/
def isMarked (line : List Char) : Bool :=
  all.any fun level => (level.name ++ ":").toList.isPrefixOf line

end Level

/-- Something that is written to the log. -/
inductive Note where
  /-- an instruction is known and will be interpreted -/
  | dispatching (opcode : String) (instruction : Instruction)
  /-- an instruction is not carried out -/
  | unexecuted (instruction : Instruction) (rs rt : String)
  /-- a register is written -/
  | wrote (register : String) (value : Int)
  /-- an instruction fails -/
  | rejected (opcode operands : String) (fault : Fault)
  /-- a line of a program cannot be read -/
  | malformed (line : Malformed)
  /-- the program starts -/
  | started
  /-- a file of initial values is read -/
  | loading (path : String)
  /-- the program ends after all lines -/
  | finished (failures : Nat)
  /-- the program stops at its input -/
  | halted (message : String)
  /-- the program is interrupted -/
  | interrupted
  /-- the program stops for a reason of another kind, which may have words -/
  | broken (message? : Option String)
  deriving DecidableEq, Repr

namespace Note

/-- The level at which a note is written. -/
def level : Note → Level
  | .dispatching .. | .unexecuted .. | .wrote .. | .malformed _ => .debug
  | .rejected .. => .warning
  | .halted _ => .error
  | _ => .info

/-- The words of a note. -/
def text : Note → String
  | .dispatching opcode i =>
    "Dispatching " ++ opcode ++ " (" ++ i.shape.label ++ ", " ++ i.label ++ ")"
  | .unexecuted i rs rt => i.label ++ " " ++ rs ++ "," ++ rt ++ " is not executed"
  | .wrote register v => register ++ " <- " ++ toString v
  | .rejected opcode operands fault => opcode ++ " " ++ operands ++ ": " ++ fault.message
  | .malformed line => line.message
  | .started => "MIPSI"
  | .loading path => "Loading initial register values from " ++ path
  | .finished 0 => "Execution finished"
  | .finished failures =>
    "Execution finished with " ++ toString failures ++ " failed instruction(s)"
  | .halted message => "Execution halted: " ++ message
  | .interrupted => "Execution halted by the user"
  | .broken none => "Execution halted on general error"
  | .broken (some message) => "Execution halted on general error " ++ message

/-- How a note is written in the log. -/
def entry (note : Note) : String :=
  note.level.name ++ ":root:" ++ note.text

/-- The lines of a note in the log, which end at line feeds and may have carriage returns in front
of these. Where the words of the note go on in another line, that line counts only if it starts with
the name of a level. -/
def lines (note : Note) : List String :=
  let lines := (Text.cut (· = '\n') note.entry.toList).map Text.dropReturn
  (lines.filter Level.isMarked).map String.ofList

theorem isMarked_entry (note : Note) : Level.isMarked note.entry.toList = true := by
  refine List.any_eq_true.2 ⟨note.level, by cases note.level <;> decide, ?_⟩
  refine List.isPrefixOf_iff_prefix.2 ⟨"root:".toList ++ note.text.toList, ?_⟩
  simp [entry]

/-- A note without line feeds is one line. -/
theorem lines_eq_singleton {note : Note} (h : '\n' ∉ note.entry.toList)
    (hlast : note.entry.toList.getLast? ≠ some '\r') : note.lines = [note.entry] := by
  have cut_eq : Text.cut (· = '\n') note.entry.toList = [note.entry.toList] :=
    Text.cut_eq_singleton fun c hc => decide_eq_false fun hn => h (hn ▸ hc)
  rw [lines, cut_eq, List.map_singleton, Text.dropReturn, if_neg hlast,
    List.filter_cons_of_pos note.isMarked_entry]
  simp

end Note

/-! ## Events -/

/-- Something that can be seen. -/
inductive Event where
  /-- on the output -/
  | report (report : Report)
  /-- in the log -/
  | note (note : Note)
  deriving DecidableEq, Repr

namespace Event

/-- The reports among events. -/
def reports (events : List Event) : List Report :=
  events.filterMap fun
    | .report r => some r
    | .note _ => none

/-- The notes among events. -/
def notes (events : List Event) : List Note :=
  events.filterMap fun
    | .report _ => none
    | .note n => some n

/-- All that events show on the output. -/
def output (layout : Layout) (events : List Event) : String :=
  String.ofList ((reports events).flatMap (Report.render layout))

/-- The lines that events leave in the log. The notes of the least level are left out unless
`verbose` is set. -/
def log (verbose : Bool) (events : List Event) : List String :=
  ((notes events).filter fun n => verbose || n.level ≠ .debug).flatMap Note.lines

@[simp] theorem reports_append (a b : List Event) : reports (a ++ b) = reports a ++ reports b := by
  simp [reports]

@[simp] theorem notes_append (a b : List Event) : notes (a ++ b) = notes a ++ notes b := by
  simp [notes]

@[simp] theorem output_append (layout : Layout) (a b : List Event) :
    output layout (a ++ b) = output layout a ++ output layout b := by
  rw [output, reports_append, List.flatMap_append, String.ofList_append]
  rfl

end Event

end TinyMips
