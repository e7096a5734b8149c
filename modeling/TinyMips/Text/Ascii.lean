import TinyMips.Text.Digit
import TinyMips.Text.Quoted

/-!
# Text in ASCII

A text can be written in the printable characters of ASCII: a backslash starts an escape sequence
for each character that is not one of them, and for itself. The main statement is that a text which
needs no escape sequences is written as it is (`toAscii_eq_self`).
-/

namespace TinyMips.Text

/-- Whether a character is written as it is: the printable ones of ASCII, but for the backslash. -/
def isVerbatim (c : Char) : Bool :=
  0x20 ≤ c.toNat && c.toNat < 0x7f && c ≠ backslash

/-- How a character is written in ASCII. -/
def escapeAscii (c : Char) : List Char :=
  if isVerbatim c then [c]
  else if c = backslash then [backslash, c]
  else if c = '\n' then [backslash, 'n']
  else if c = '\r' then [backslash, 'r']
  else if c = '\t' then [backslash, 't']
  else escapeCodePoint c.toNat

/-- A text written in ASCII. -/
def toAscii (s : List Char) : List Char :=
  s.flatMap escapeAscii

/-- The number of digits in the escape sequence of a kind. -/
def escapeWidth? : Char → Option Nat
  | 'x' => some 2
  | 'u' => some 4
  | 'U' => some 8
  | _ => none

/-- An escape sequence with too few digits. -/
structure BrokenEscape where
  /-- the number of characters in front of it -/
  start : Nat
  /-- its kind -/
  kind : Char
  /-- the number of its digits -/
  digits : Nat
  /-- the number of digits that it should have -/
  width : Nat
  deriving DecidableEq, Repr

/-- The words for an escape sequence with too few digits. -/
def BrokenEscape.message (e : BrokenEscape) : String :=
  "'unicodeescape' codec can't decode bytes in position " ++ toString e.start ++ "-" ++
    toString (e.start + e.digits + 1) ++ ": truncated \\" ++
    String.ofList (e.kind :: List.replicate e.width 'X') ++ " escape"

/-- The text that is written in ASCII behind a number of other characters. A backslash that starts
no escape sequence stays. -/
def ofAscii (start : Nat) : List Char → Except BrokenEscape (List Char)
  | [] => .ok []
  | '\\' :: '\\' :: s => (ofAscii (start + 2) s).map ('\\' :: ·)
  | '\\' :: 'n' :: s => (ofAscii (start + 2) s).map ('\n' :: ·)
  | '\\' :: 'r' :: s => (ofAscii (start + 2) s).map ('\r' :: ·)
  | '\\' :: 't' :: s => (ofAscii (start + 2) s).map ('\t' :: ·)
  | '\\' :: kind :: s =>
    match escapeWidth? kind with
    | none => (ofAscii (start + 1) (kind :: s)).map ('\\' :: ·)
    | some width =>
      let digits := ((s.take width).takeWhile fun c => (hexValue? c).isSome).filterMap hexValue?
      if digits.length = width then
        (ofAscii (start + 2 + width) (s.drop width)).map
          (Char.ofNat (digits.foldl (fun n d => 16 * n + d) 0) :: ·)
      else .error { start, kind, digits := digits.length, width }
  | c :: s => (ofAscii (start + 1) s).map (c :: ·)
termination_by s => s.length
decreasing_by
  all_goals simp only [List.length_drop, List.length_cons]
  all_goals omega

example : (ofAscii 0 (toAscii ['a', '\\', 'é', '\n', '\x1b', '😀'])).toOption =
    some ['a', '\\', 'é', '\n', '\x1b', '😀'] := by decide +kernel

/-- A text without characters that have to be escaped is written as it is. -/
theorem toAscii_eq_self {s : List Char} (h : ∀ c ∈ s, isVerbatim c) : toAscii s = s := by
  induction s with
  | nil => rfl
  | cons c rest ih =>
    change escapeAscii c ++ toAscii rest = c :: rest
    rw [escapeAscii, if_pos (h c List.mem_cons_self),
      ih fun d hd => h d (List.mem_cons_of_mem c hd)]
    rfl

end TinyMips.Text
