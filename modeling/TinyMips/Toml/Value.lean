import TinyMips.Binary64
import TinyMips.Numeral
import TinyMips.Text.Quoted

/-!
# Values of TOML documents

The values that a document holds, and the text by which messages show them.
-/

namespace TinyMips.Toml

/-- A day of the calendar. -/
structure Date where
  /-- the year, from 1 to 9999 -/
  year : Nat
  /-- the month, from 1 to 12 -/
  month : Nat
  /-- the day of the month -/
  day : Nat
  deriving DecidableEq, Repr

/-- A time of the day. -/
structure Time where
  /-- the hour, from 0 to 23 -/
  hour : Nat
  /-- the minute, from 0 to 59 -/
  minute : Nat
  /-- the second, from 0 to 59 -/
  second : Nat
  /-- the millionths of a second, from 0 to 999999 -/
  microsecond : Nat
  deriving DecidableEq, Repr

/-- A value of a document. -/
inductive Value where
  /-- a text -/
  | string (s : String)
  /-- an integer of any size -/
  | integer (n : Int)
  /-- a floating-point number -/
  | float (x : Binary64)
  /-- a truth value -/
  | boolean (b : Bool)
  /-- a day -/
  | date (d : Date)
  /-- a time of an unnamed day -/
  | time (t : Time)
  /-- a time of a day, with the minutes by which it is ahead of universal time if they are given -/
  | moment (d : Date) (t : Time) (offset? : Option Int)
  /-- a list of values -/
  | array (items : List Value)
  /-- values with their names, in the order in which they were given -/
  | table (entries : List (String × Value))
  deriving Inhabited

/-- The entries of a table. -/
abbrev Table := List (String × Value)

/-! ## Texts of values -/

/-- A day as three numbers. -/
def Date.parts (d : Date) : List String :=
  [toString d.year, toString d.month, toString d.day]

/-- A time as numbers: seconds and their parts are left out from the end if they are zero. -/
def Time.parts (t : Time) : List String :=
  [toString t.hour, toString t.minute] ++
    if t.microsecond ≠ 0 then [toString t.second, toString t.microsecond]
    else if t.second ≠ 0 then [toString t.second]
    else []

/-- A distance from universal time. A distance to the west is a day less and the seconds up from
there. -/
def offsetText (minutes : Int) : String :=
  if minutes = 0 then "datetime.timezone.utc"
  else if minutes < 0 then
    "datetime.timezone(datetime.timedelta(days=-1, seconds=" ++
      toString (86400 + 60 * minutes) ++ "))"
  else "datetime.timezone(datetime.timedelta(seconds=" ++ toString (60 * minutes) ++ "))"

/-- A name applied to arguments. -/
def callText (name : String) (arguments : List String) : String :=
  name ++ "(" ++ ", ".intercalate arguments ++ ")"

namespace Value

mutual

/-- The text by which a value is shown. -/
def text : Value → String
  | .string s => Text.quoted s
  | .integer n => toString n
  | .float x => x.text
  | .boolean b => if b then "True" else "False"
  | .date d => callText "datetime.date" d.parts
  | .time t => callText "datetime.time" t.parts
  | .moment d t offset? =>
    callText "datetime.datetime"
      (d.parts ++ t.parts ++ (offset?.map fun m => "tzinfo=" ++ offsetText m).toList)
  | .array items => "[" ++ ", ".intercalate (itemTexts items) ++ "]"
  | .table entries => "\x7b" ++ ", ".intercalate (entryTexts entries) ++ "\x7d"

/-- The texts of the items of an array. -/
def itemTexts : List Value → List String
  | [] => []
  | v :: rest => v.text :: itemTexts rest

/-- The texts of the entries of a table. -/
def entryTexts : List (String × Value) → List String
  | [] => []
  | (name, v) :: rest => (Text.quoted name ++ ": " ++ v.text) :: entryTexts rest

end

/-- Why a value cannot be shown. -/
inductive TextFault where
  /-- an integer in it would take too many digits -/
  | numeral (e : Numeral.Error)
  /-- there are too many values around another -/
  | tooDeep
  deriving DecidableEq, Repr

/-- The most values that may be around another when it is shown. There may be 1000 calls under way.
Each of these values takes one of them, and so does whoever asks for the text, and whoever asks for
that: they are taken to be eight, as where a document is read by itself. In the middle of a longer
program there are more of them, and less is left for the values. -/
def greatestDepth : Nat := 992

mutual

/-- Why a value cannot be shown, if it cannot. The first fault in the order of its text counts.
There may be as many values around another as `room` says. -/
def textFault? (room : Nat) : Value → Option TextFault
  | .integer n => if Numeral.Writable n then none else some (.numeral .tooLongToWrite)
  | .array items => itemsFault? room items
  | .table entries => entriesFault? room entries
  | _ => none

/-- Why the items of an array cannot be shown, if they cannot. -/
def itemsFault? (room : Nat) : List Value → Option TextFault
  | [] => none
  | v :: rest =>
    match room with
    | 0 => some .tooDeep
    | inner + 1 => (v.textFault? inner).or (itemsFault? room rest)

/-- Why the entries of a table cannot be shown, if they cannot. -/
def entriesFault? (room : Nat) : List (String × Value) → Option TextFault
  | [] => none
  | (_, v) :: rest =>
    match room with
    | 0 => some .tooDeep
    | inner + 1 => (v.textFault? inner).or (entriesFault? room rest)

end

end Value

end TinyMips.Toml
