import TinyMips.Program

/-!
# The command line

Reads the files that the command line names, lets the library run, and writes what there is to
see: reports on the output, notes in the log. On a terminal, lines are answered as they are
entered.
-/

namespace TinyMips.Main

/-- Writes events to the output and to the log, in order. -/
def emit (settings : Settings) (events : List Event) : IO Unit := do
  let out ← IO.getStdout
  let log ← IO.getStderr
  for event in events do
    match event with
    | .report r => out.putStr (String.ofList (r.render (Layout.ofName settings.tableFormat)))
    | .note n => if settings.verbose || n.level ≠ .debug then log.putStrLn n.entry
  out.flush
  log.flush

/-- The bytes of a file. -/
def readBytes (path : String) : IO (Except FileFault (List UInt8)) := do
  try
    return .ok (← IO.FS.readBinFile path).toList
  catch
    | .inappropriateType _ 21 _ => return .error .isDirectory
    | .inappropriateType .. => return .error .notDirectory
    | .invalidArgument .. => return .error .tooLong
    | _ => return .error .missing

/-- The files that a command line names, as far as it can be read. -/
def diskFor (words : List String) : IO Disk := do
  match CommandLine.readWords {} none words with
  | .error _ => return fun _ => .error .missing
  | .ok { options, .. } =>
    let mut known : List (String × Except FileFault (List UInt8)) := []
    if let some path := options.patch.init? then
      let content ← readBytes path
      known := (path, content) :: (FilePath.tidy path, content) :: known
    if let some path := options.source? then
      known := (FilePath.tidy path, ← readBytes (FilePath.tidy path)) :: known
    let files := known
    return fun path => (files.lookup path).getD (.error .missing)

/-- Writes the last note, and answers with the exit code. -/
def conclude (settings : Settings) (verdict : Verdict) : IO UInt32 := do
  emit settings [.note verdict.note]
  return verdict.exitCode.toUInt32

/-- Answers lines as they are entered. -/
partial def converse (settings : Settings) (m : Machine) (line : Int) (failures : Nat) :
    IO UInt32 := do
  emit settings (Machine.invitation true)
  let text ← (← IO.getStdin).getLine
  let answer? := if text.isEmpty then none else m.answer? line (Text.unifyBreaks text.toList)
  match answer? with
  | none =>
    let run := Program.finish settings m failures
    emit settings run.events
    conclude settings (Program.verdict run)
  | some run =>
    emit settings run.events
    match run.result with
    | .ok more => converse settings run.machine (line + 1) (failures + more)
    | .error halt => conclude settings (.ofHalt halt)

/-- Runs the program with options. -/
def run (options : Options) (disk : Disk) : IO UInt32 := do
  let settings := ({} : Settings).update options.patch
  let stdin ← IO.getStdin
  let isTerminal := options.source?.isNone && (← stdin.isTty)
  if isTerminal then
    let start := Program.start settings disk
    emit settings start.events
    match start.result with
    | .ok () => converse settings start.machine 1 0
    | .error verdict => conclude settings verdict
  else
    let mut text := ""
    if options.source?.isNone then
      repeat
        let line ← stdin.getLine
        if line.isEmpty then break
        text := text ++ line
    let work := Program.work options disk (Input.ofStream text) false
    let run := Program.body settings disk work
    emit settings run.events
    conclude settings (Program.verdict run)

end TinyMips.Main

open TinyMips in
/-- Runs the program with the words of the command line. -/
def main (words : List String) : IO UInt32 := do
  let disk ← Main.diskFor words
  match CommandLine.read disk words with
  | .error e =>
    IO.eprintln e.message
    return e.exitCode.toUInt32
  | .ok .explain =>
    IO.print CommandLine.explanation
    return 0
  | .ok (.run options) => Main.run options disk
