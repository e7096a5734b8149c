import TinyMips.Disk
import TinyMips.Settings

/-!
# Command lines

Reading the words of a command line. Options may stand before and after the source, the last of
several of one kind counts, and two dashes end them.
-/

namespace TinyMips

/-- The options of the command line. -/
inductive Switch where
  /-- all details in the log -/
  | verbose
  /-- a file of initial values -/
  | init
  /-- a list of all registers at the end -/
  | dump
  /-- no list of all registers at the end -/
  | noDump
  /-- the layout of tables -/
  | tableFormat
  /-- an explanation of the options in the place of a run -/
  | help
  deriving DecidableEq, Repr

namespace Switch

/-- The option of a long name. -/
def ofName? : String → Option Switch
  | "verbose" => some .verbose
  | "init" => some .init
  | "dump" => some .dump
  | "no-dump" => some .noDump
  | "table-format" => some .tableFormat
  | "help" => some .help
  | _ => none

/-- The option of a letter. -/
def ofLetter? : Char → Option Switch
  | 'v' => some .verbose
  | 'i' => some .init
  | _ => none

/-- Whether a value belongs to the option. -/
def takesValue : Switch → Bool
  | .init | .tableFormat => true
  | _ => false

end Switch

/-- What a command line says about a run. -/
structure Options where
  /-- choices about the run -/
  patch : Settings.Patch := {}
  /-- the program to run; without one, lines are read from the input -/
  source? : Option String := none
  deriving DecidableEq, Repr

/-- A command line as far as it has been read. -/
structure CommandLine where
  /-- the options so far -/
  options : Options := {}
  /-- whether an explanation is asked for -/
  wantsHelp : Bool := false
  /-- the first word that would be a second source -/
  extra? : Option String := none
  deriving DecidableEq, Repr

/-- What is to be done. -/
inductive Request where
  /-- the program is run -/
  | run (options : Options)
  /-- the options are explained -/
  | explain
  deriving DecidableEq, Repr

/-- A command line that is not understood. -/
inductive UsageError where
  /-- no option has this name -/
  | unknownOption (word : String)
  /-- the value of the option is missing -/
  | missingValue (word : String)
  /-- the option has no value -/
  | unwantedValue (word : String)
  /-- more than one source is given -/
  | extraSource (word : String)
  /-- the file of initial values cannot be read -/
  | unreadableFile (path : String) (fault : FileFault)
  deriving DecidableEq, Repr

/-- The words for a command line that is not understood. -/
def UsageError.message : UsageError → String
  | .unknownOption word => "No such option: " ++ word
  | .missingValue word => "Option " ++ word ++ " requires a value"
  | .unwantedValue word => "Option " ++ word ++ " does not take a value"
  | .extraSource word => "Got unexpected extra argument " ++ word
  | .unreadableFile path fault => "File cannot be read: " ++ fault.message path

/-- The exit code for a command line that is not understood. -/
def UsageError.exitCode : UsageError → Nat
  | .unreadableFile _ .nullInPath => 1
  | _ => 2

namespace CommandLine

/-- The explanation of the options. -/
def explanation : String :=
  "Usage: [OPTIONS] [SOURCE]\n\n" ++
  "Options:\n" ++
  "  -v, --verbose         Sets logging level to debug\n" ++
  "  -i, --init FILE       TOML file with initial register values\n" ++
  "  --dump / --no-dump    Print register files when done\n" ++
  "  --table-format TEXT   Layout of the reports\n" ++
  "  --help                Show this message and exit\n"

/-- The command line with one more option. -/
def set (c : CommandLine) : Switch → CommandLine
  | .verbose => { c with options.patch.verbose? := some true }
  | .dump => { c with options.patch.dump? := some true }
  | .noDump => { c with options.patch.dump? := some false }
  | .help => { c with wantsHelp := true }
  | _ => c

/-- The command line with one more option that has a value. -/
def setValue (c : CommandLine) (value : String) : Switch → CommandLine
  | .init => { c with options.patch.init? := some value }
  | .tableFormat => { c with options.patch.tableFormat? := some value }
  | _ => c

/-- The command line with a source. -/
def setSource (c : CommandLine) (word : String) : CommandLine :=
  match c.options.source? with
  | none => { c with options.source? := some word }
  | some _ => { c with extra? := some (c.extra?.getD word) }

/-- A word of the command line. -/
inductive Word where
  /-- two dashes -/
  | endOfOptions
  /-- a long name, and the value after its equals sign if it has one -/
  | long (name : String) (value? : Option String)
  /-- letters, the last of which may be the start of a value -/
  | letters (letters : List Char)
  /-- anything else -/
  | plain
  deriving DecidableEq, Repr

/-- The kind of a word. -/
def Word.of (word : String) : Word :=
  match word.toList with
  | ['-', '-'] => .endOfOptions
  | '-' :: '-' :: name =>
    match name.dropWhile (· ≠ '=') with
    | _ :: value => .long (String.ofList (name.takeWhile (· ≠ '='))) (some (String.ofList value))
    | [] => .long (String.ofList name) none
  | '-' :: letter :: rest => .letters (letter :: rest)
  | _ => .plain

/-- Reads the letters of a word. The answer is an option that takes the next word as its value, if
the letters end in one. -/
def readLetters (word : String) (c : CommandLine) :
    List Char → Except UsageError (CommandLine × Option Switch)
  | [] => .ok (c, none)
  | letter :: rest =>
    match Switch.ofLetter? letter with
    | none => .error (.unknownOption word)
    | some switch =>
      if switch.takesValue then
        if rest = [] then .ok (c, some switch)
        else .ok (c.setValue (String.ofList rest) switch, none)
      else readLetters word (c.set switch) rest

/-- Reads a long name. The answer is an option that takes the next word as its value, if it has
none yet. -/
def readLong (word : String) (c : CommandLine) (name : String) (value? : Option String) :
    Except UsageError (CommandLine × Option Switch) :=
  match Switch.ofName? name, value? with
  | none, _ => .error (.unknownOption word)
  | some switch, some value =>
    if switch.takesValue then .ok (c.setValue value switch, none)
    else .error (.unwantedValue word)
  | some switch, none =>
    if switch.takesValue then .ok (c, some switch) else .ok (c.set switch, none)

/-- Reads the words of a command line. An option in `pending` takes the next word as its value. -/
def readWords (c : CommandLine) (pending : Option (Switch × String)) :
    List String → Except UsageError CommandLine
  | [] =>
    match pending with
    | none => .ok c
    | some (_, word) => .error (.missingValue word)
  | word :: rest =>
    match pending with
    | some (switch, _) => readWords (c.setValue word switch) none rest
    | none =>
      match Word.of word with
      | .endOfOptions => .ok (rest.foldl setSource c)
      | .long name value? => do
        let (c, switch?) ← readLong word c name value?
        readWords c (switch?.map (·, word)) rest
      | .letters letters => do
        let (c, switch?) ← readLetters word c letters
        readWords c (switch?.map (·, word)) rest
      | .plain => readWords (c.setSource word) none rest

/-- The options with the path to the file of initial values, which has to be there. -/
def checkInit (disk : Disk) (options : Options) : Except UsageError Options :=
  match options.patch.init? with
  | none => .ok options
  | some path =>
    match disk path with
    | .ok _ => .ok { options with patch.init? := some (FilePath.tidy path) }
    | .error fault => .error (.unreadableFile path fault)

/-- Reads a command line. A request for an explanation counts before all that is wrong with what
the options say, and the file of initial values is looked for before the sources are counted. -/
def read (disk : Disk) (words : List String) : Except UsageError Request := do
  let c ← readWords {} none words
  if c.wantsHelp then return .explain
  let options ← checkInit disk c.options
  match c.extra? with
  | none => return .run options
  | some word => throw (.extraSource word)

end CommandLine

end TinyMips
