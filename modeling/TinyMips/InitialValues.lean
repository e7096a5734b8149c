import TinyMips.Text.Line
import TinyMips.Toml.Document
import TinyMips.Word

/-!
# Initial values

The values that registers have before a run, as a document gives them in its tables `registers`
and `special`. The values are checked here; whether the registers exist is found out when they
are written.
-/

namespace TinyMips

/-- The values that are written to the registers before a run. -/
structure InitialValues where
  /-- names and values for the general registers -/
  general : List (String × Int)
  /-- names and values for the accumulators -/
  accumulators : List (String × Int)
  deriving DecidableEq, Repr

namespace InitialValues

/-- What is wrong with a document of initial values. -/
inductive Fault where
  /-- what should be a table is something else -/
  | notTable (part : String) (value : Toml.Value)
  /-- what should be an integer is something else -/
  | notInteger (name : String) (value : Toml.Value)
  /-- an integer is no word, signed or unsigned -/
  | outOfRange (name : String) (value : Int)

/-- The words for what is wrong with a document. -/
def Fault.message : Fault → String
  | .notTable part v => "[" ++ part ++ "] must be a table, got " ++ v.text
  | .notInteger name v => "Initial value of " ++ name ++ " must be an integer, got " ++ v.text
  | .outOfRange name n =>
    "Initial value of " ++ name ++ " does not fit 32 bits, got " ++ toString n

/-- What is done with a value. -/
inductive Step where
  /-- it is read -/
  | reading
  /-- it is shown in a message -/
  | showing
  deriving DecidableEq, Repr

/-- The words for a step at which there are too many values around another. -/
def Step.message : Step → String
  | .reading => "maximum recursion depth exceeded"
  | .showing => "maximum recursion depth exceeded while getting the repr of an object"

/-- Why a text is not accepted. -/
inductive Error where
  /-- its values are not what they should be -/
  | fault (fault : Fault)
  /-- a numeral is beyond the limits -/
  | numeral (error : Numeral.Error)
  /-- there are too many values around another, to read it or to show it -/
  | tooDeep (step : Step)
  /-- it is not a document -/
  | malformed

/-- Blames a value, unless it cannot be shown. -/
def blame {α : Type} (fault : Fault) (v : Toml.Value) : Except Error α :=
  match v.textFault? Toml.Value.greatestDepth with
  | none => .error (.fault fault)
  | some (.numeral e) => .error (.numeral e)
  | some .tooDeep => .error (.tooDeep .showing)

/-- The word that a value stands for. -/
def readWord (name : String) (v : Toml.Value) : Except Error Int :=
  match v with
  | .integer n =>
    if leastWord ≤ n ∧ n ≤ greatestWord then .ok n else blame (.outOfRange name n) v
  | _ => blame (.notInteger name v) v

/-- The names and words of one of the tables; without the table there are none. -/
def readPart (part : String) (document : Toml.Table) : Except Error (List (String × Int)) :=
  match document.get? part with
  | none => .ok []
  | some (.table entries) => entries.mapM fun (name, v) => do return (name, ← readWord name v)
  | some v => blame (.notTable part v) v

/-- The initial values that a document gives. -/
def ofDocument (document : Toml.Table) : Except Error InitialValues := do
  let general ← readPart "registers" document
  let accumulators ← readPart "special" document
  return { general, accumulators }

/-- The initial values that a text gives. Line breaks of all kinds count as line feeds. -/
def ofText (text : List Char) : Except Error InitialValues :=
  match Toml.read (Text.unifyBreaks text) with
  | .ok document => ofDocument document
  | .error .malformed => .error .malformed
  | .error (.numeral e) => .error (.numeral e)
  | .error .tooDeep => .error (.tooDeep .reading)

end InitialValues

end TinyMips
