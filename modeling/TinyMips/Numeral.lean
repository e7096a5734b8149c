import TinyMips.Text.Digit
import TinyMips.Text.Quoted

/-!
# Numerals

Decimal numerals are read and written up to a greatest number of digits. Beyond it neither
direction is carried out, so that no instruction text can ask for unbounded work. Numerals in
base sixteen are read without a limit.
-/

namespace TinyMips

namespace Numeral

/-- The greatest number of digits of a decimal numeral; leading zeros count, a sign does not. -/
def digitLimit : Nat := 4300

/-- Why a numeral is not read or an integer not written. -/
inductive Error where
  /-- the numeral has too many digits -/
  | tooLongToRead (digits : Nat)
  /-- the integer would take too many digits -/
  | tooLongToWrite
  /-- some of the digits have no place in a decimal numeral -/
  | notDecimal (text : String)
  deriving DecidableEq, Repr

/-- The most characters of an unreadable numeral that a message quotes, marks included. -/
def quotationLimit : Nat := 200

/-- The words for an error. -/
def Error.message : Error → String
  | .tooLongToRead digits =>
    "Exceeds the limit (4300 digits) for integer string conversion: value has " ++
      toString digits ++ " digits; use sys.set_int_max_str_digits() to increase the limit"
  | .tooLongToWrite =>
    "Exceeds the limit (4300 digits) for integer string conversion; " ++
      "use sys.set_int_max_str_digits() to increase the limit"
  | .notDecimal text =>
    "invalid literal for int() with base 10: " ++
      String.ofList ((Text.quote text.toList).take quotationLimit)

/-- Takes a sign off a text, and says whether it is a minus. -/
def readSign : List Char → Bool × List Char
  | '+' :: rest => (false, rest)
  | '-' :: rest => (true, rest)
  | s => (false, s)

/-- The number that digits spell in a base, the first digit being the most significant. -/
def ofDigits (base : Nat) (digits : List Nat) : Nat :=
  digits.foldl (fun n d => n * base + d) 0

/-- Reads decimal digits, unless there are too many. -/
def readDecimal (digits : List Nat) : Except Error Nat :=
  if digits.length ≤ digitLimit then .ok (ofDigits 10 digits)
  else .error (.tooLongToRead digits.length)

/-- The values of the decimal digits that a text starts with. -/
def leadingDigits : List Char → List Nat
  | [] => []
  | c :: rest =>
    match Text.decimalValue? c with
    | some v => v :: leadingDigits rest
    | none => []

/-- Reads a text that should be decimal digits of any script. That its first digits are too many
counts before anything else that may be wrong with it. -/
def readText (text : List Char) : Except Error Nat := do
  let digits := leadingDigits text
  let n ← readDecimal digits
  if digits.length = text.length then .ok n else .error (.notDecimal (String.ofList text))

/-- Whether an integer can be written in decimal digits. -/
def Writable (n : Int) : Prop :=
  (Nat.toDigits 10 n.natAbs).length ≤ digitLimit

instance (n : Int) : Decidable (Writable n) :=
  inferInstanceAs (Decidable (_ ≤ _))

/-- The integers that can be written are those between the powers of ten at the limit. -/
theorem writable_iff (n : Int) : Writable n ↔ n.natAbs < Nat.pow 10 digitLimit := by
  have positive : 0 < digitLimit := by decide
  unfold Writable
  -- The power is too great to be computed.
  generalize digitLimit = k at positive ⊢
  exact Nat.length_toDigits_le_iff (by decide) positive

/-- An integer no greater in size than one that can be written can be written. -/
theorem Writable.of_natAbs_le {a b : Int} (hb : Writable b) (h : a.natAbs ≤ b.natAbs) :
    Writable a :=
  (writable_iff a).2 (Nat.lt_of_le_of_lt h ((writable_iff b).1 hb))

end Numeral

end TinyMips
