import TinyMips.CommandLine
import TinyMips.Session
import TinyMips.Startup

/-!
# The program

A whole run of the program: starting the machine, running a file or a session, and what the exit
code and the log say about the end.
-/

namespace TinyMips

/-- How a run of the program ends. -/
inductive Verdict where
  /-- after all lines, some of which may have failed -/
  | finished (failures : Nat)
  /-- at initial values that are not accepted -/
  | halted (message : String)
  /-- at an interruption of the input -/
  | interrupted
  /-- at anything else; documents that cannot be read are passed over without words -/
  | broken (message? : Option String)
  deriving DecidableEq, Repr

namespace Verdict

/-- The exit code that stands for the end. -/
def exitCode : Verdict → Nat
  | .finished 0 => 0
  | .finished _ => 2
  | .halted _ => 2
  | .interrupted => 3
  | .broken _ => 100

/-- The last note of the log. -/
def note : Verdict → Note
  | .finished failures => .finished failures
  | .halted message => .halted message
  | .interrupted => .interrupted
  | .broken message? => .broken message?

/-- The end at a numeral beyond the limits. -/
def ofNumeral (e : Numeral.Error) : Verdict :=
  .broken (some e.message)

/-- The end of a run that does not go on. -/
def ofHalt : Halt → Verdict
  | .numeral e => ofNumeral e
  | .interrupted => .interrupted

/-- The end at changes that are not made. -/
def ofFailure : Failure → Verdict
  | .fault f => .halted f.message
  | .numeral e => ofNumeral e

/-- The end at initial values. -/
def ofInitialValues : InitialValues.Error → Verdict
  | .fault f => .halted f.message
  | .numeral e => ofNumeral e
  | .tooDeep step => .broken (some step.message)
  | .malformed => .broken none

end Verdict

/-! ## The parts of a run -/

namespace Run

/-- A run with another kind of error. -/
def mapError {ε ε' α : Type} (f : ε → ε') (run : Run ε α) : Run ε' α :=
  { machine := run.machine, events := run.events, result := run.result.mapError f }

/-- A run that has come to its end before it began. -/
def fail {ε α : Type} (e : ε) : Run ε α :=
  { machine := .zero, events := [], result := .error e }

end Run

/-- The text of a file. -/
def Disk.readText (disk : Disk) (path : String) : Except Verdict (List Char) :=
  match disk path with
  | .error fault => .error (.broken (some (fault.message path)))
  | .ok bytes =>
    match Text.decodeUtf8 bytes with
    | .error e => .error (.broken (some e.message))
    | .ok text => .ok text

/-- The lines of a stream. Line breaks of all kinds count as line feeds. -/
def Input.ofStream (text : String) : Input :=
  Input.ofText (String.ofList (Text.unifyBreaks text.toList))

namespace Program

/-- Starts the machine with the values of a file. -/
def loadFile (disk : Disk) (path : String) : Run Verdict Unit :=
  match disk.readText path with
  | .error verdict => .fail verdict
  | .ok text =>
    match InitialValues.ofText text with
    | .error e => .fail (.ofInitialValues e)
    | .ok values => (Machine.start values).mapError .ofFailure

/-- Starts the machine. -/
def start (settings : Settings) (disk : Disk) : Run Verdict Unit :=
  let run : Run Verdict Unit :=
    match settings.init? with
    | none => .done .zero ()
    | some path => (loadFile disk path).after [.note (.loading path)]
  run.after [.note .started]

/-- Runs the program in a file. -/
def runFile (disk : Disk) (path : String) (m : Machine) : Run Verdict Nat :=
  match disk.readText path with
  | .error verdict => { machine := m, events := [], result := .error verdict }
  | .ok text => (m.execute (String.ofList text)).mapError .ofHalt

/-- Runs the lines of an input. -/
def runInput (input : Input) (isInteractive : Bool) (m : Machine) : Run Verdict Nat :=
  (m.session input isInteractive).mapError .ofHalt

/-- Lists the registers at the end of a run, if that is asked for. -/
def finish (settings : Settings) (m : Machine) (failures : Nat) : Run Verdict Nat :=
  (Run.done m failures).after (if settings.dump then m.listRegisters else [])

/-- A run of the program, up to its last note. -/
def body (settings : Settings) (disk : Disk) (work : Machine → Run Verdict Nat) :
    Run Verdict Nat :=
  ((start settings disk).andThen fun m _ => work m).andThen (finish settings)

/-- How a run ends. -/
def verdict (run : Run Verdict Nat) : Verdict :=
  match run.result with
  | .ok failures => .finished failures
  | .error verdict => verdict

end Program

/-! ## The whole -/

/-- All that can be seen of a run of the program. -/
structure Transcript where
  /-- the exit code -/
  exitCode : Nat
  /-- what is written on the output -/
  output : String
  /-- the lines of the log -/
  log : List String
  deriving DecidableEq, Repr

namespace Transcript

/-- What can be seen of a run that ends in a verdict. -/
def of (settings : Settings) (events : List Event) (verdict : Verdict) : Transcript :=
  let events := events ++ [.note verdict.note]
  { exitCode := verdict.exitCode
    output := Event.output (Layout.ofName settings.tableFormat) events
    log := Event.log settings.verbose events }

end Transcript

namespace Program

/-- What the program does with the machine: it runs the source, or else the lines of the input. -/
def work (options : Options) (disk : Disk) (input : Input) (isInteractive : Bool) :
    Machine → Run Verdict Nat :=
  match options.source? with
  | some path => runFile disk (FilePath.tidy path)
  | none => runInput input isInteractive

/-- Runs the program with options. -/
def run (options : Options) (disk : Disk) (input : Input) (isInteractive : Bool) : Transcript :=
  let settings := ({} : Settings).update options.patch
  let run := body settings disk (work options disk input isInteractive)
  .of settings run.events (verdict run)

end Program

end TinyMips
