import TinyMips.Text.Digit
import TinyMips.Toml.Value

/-!
# Scalars of TOML documents

Strings in their four kinds, numbers, days and times. A reader takes what it reads off the front
of the text, with as many characters as belong to it.
-/

namespace TinyMips.Toml

/-- Why a document is not read. -/
inductive Error where
  /-- it is not a document -/
  | malformed
  /-- a numeral is beyond the limits -/
  | numeral (error : Numeral.Error)
  /-- there are too many values around another -/
  | tooDeep
  deriving DecidableEq, Repr

/-- Reads something and answers with it and the rest of the text. -/
abbrev Reader (α : Type) := List Char → Except Error (α × List Char)

/-! ## Characters -/

/-- Control characters. -/
def isControl (c : Char) : Bool :=
  c.toNat < 0x20 || c.toNat = 0x7f

/-- The characters that may not stand in a comment or in a string of one line. -/
def isForbidden (c : Char) : Bool :=
  isControl c && c ≠ '\t'

/-- The characters that may not stand in a string of several lines. -/
def isForbiddenInLines (c : Char) : Bool :=
  isForbidden c && c ≠ '\n'

/-- The characters between the parts of a line. -/
def isSpace (c : Char) : Bool :=
  c = ' ' || c = '\t'

/-- The characters between the items of an array. -/
def isSpaceOrNewline (c : Char) : Bool :=
  isSpace c || c = '\n'

/-- Drops the spaces at the front. -/
def skipSpace (s : List Char) : List Char :=
  s.dropWhile isSpace

/-- The rest of a text after `start`, if it starts so. -/
def after? (start s : List Char) : Option (List Char) :=
  if start.isPrefixOf s then some (s.drop start.length) else none

/-! ## Strings -/

/-- The code point that a run of digits in base sixteen stands for. -/
def readCodePoint (count : Nat) : Reader Char := fun s =>
  match (s.take count).mapM Text.hexValue? with
  | none => .error .malformed
  | some digits =>
    let n := Numeral.ofDigits 16 digits
    if digits.length = count ∧ n.isValidChar then .ok (Char.ofNat n, s.drop count)
    else .error .malformed

/-- The character that a letter after a backslash stands for. -/
def namedEscape? : Char → Option Char
  | 'b' => some '\x08'
  | 't' => some '\t'
  | 'n' => some '\n'
  | 'f' => some '\x0c'
  | 'r' => some '\r'
  | '\x22' => some '\x22'
  | '\\' => some '\\'
  | _ => none

/-- Reads the rest of a line that ends in a backslash, and the blanks that the next lines start
with. -/
def readLineEnd (s : List Char) : Except Error (List Char) :=
  match skipSpace s with
  | [] => .ok []
  | '\n' :: rest => .ok (rest.dropWhile isSpaceOrNewline)
  | _ => .error .malformed

/-- Reads an escape sequence from behind its backslash. -/
def readEscape (isLines : Bool) : Reader (List Char) := fun s =>
  match s with
  | [] => .error .malformed
  | c :: rest =>
    if isLines ∧ isSpaceOrNewline c then (readLineEnd s).map ([], ·)
    else if c = 'u' then (readCodePoint 4 rest).map fun (c, rest) => ([c], rest)
    else if c = 'U' then (readCodePoint 8 rest).map fun (c, rest) => ([c], rest)
    else
      match namedEscape? c with
      | some c => .ok ([c], rest)
      | none => .error .malformed

/-- Reads a string with escapes up to its closing marks. No string has more parts than its text
has characters, so `fuel` is taken from there. -/
def readBasicBody (isLines : Bool) : Nat → Reader (List Char)
  | 0, _ => .error .malformed
  | _ + 1, [] => .error .malformed
  | fuel + 1, c :: rest =>
    if c = '\x22' then
      if isLines then
        match after? ['\x22', '\x22'] rest with
        | some rest => .ok ([], rest)
        | none => do
          let (more, rest) ← readBasicBody isLines fuel rest
          return (c :: more, rest)
      else .ok ([], rest)
    else if c = '\\' then do
      let (piece, rest) ← readEscape isLines rest
      let (more, rest) ← readBasicBody isLines fuel rest
      return (piece ++ more, rest)
    else if (if isLines then isForbiddenInLines c else isForbidden c) then .error .malformed
    else do
      let (more, rest) ← readBasicBody isLines fuel rest
      return (c :: more, rest)

/-- Reads a string without escapes up to its closing mark. -/
def readLiteralBody : Reader (List Char)
  | [] => .error .malformed
  | c :: rest =>
    if c = '\x27' then .ok ([], rest)
    else if isForbidden c then .error .malformed
    else (readLiteralBody rest).map fun (more, rest) => (c :: more, rest)

/-- Reads a string of several lines without escapes up to its closing marks. -/
def readLiteralLinesBody : Reader (List Char)
  | [] => .error .malformed
  | c :: rest =>
    match after? ['\x27', '\x27', '\x27'] (c :: rest) with
    | some rest => .ok ([], rest)
    | none =>
      if isForbiddenInLines c then .error .malformed
      else (readLiteralLinesBody rest).map fun (more, rest) => (c :: more, rest)

/-- Drops a line feed at the front. -/
def skipFirstNewline : List Char → List Char
  | '\n' :: rest => rest
  | s => s

/-- Up to two marks that stand directly after the closing marks of a string of several lines
belong to it. -/
def readExtraMarks (mark : Char) (s : List Char) : List Char × List Char :=
  let extra := (s.take 2).takeWhile (· = mark)
  (extra, s.drop extra.length)

/-- Reads the rest of a string of several lines from behind its opening marks. -/
def readLines (mark : Char) (body : Reader (List Char)) : Reader String := fun s => do
  let (chars, rest) ← body (skipFirstNewline s)
  let (extra, rest) := readExtraMarks mark rest
  return (String.ofList (chars ++ extra), rest)

/-- Reads a string with escapes on one line, from behind its opening mark. -/
def readBasic : Reader String := fun s => do
  let (chars, rest) ← readBasicBody false (s.length + 1) s
  return (String.ofList chars, rest)

/-- Reads a string without escapes on one line, from behind its opening mark. -/
def readLiteral : Reader String := fun s => do
  let (chars, rest) ← readLiteralBody s
  return (String.ofList chars, rest)

/-- Reads a string of any kind, if the text starts with one of their marks. -/
def readString? (s : List Char) : Option (Except Error (String × List Char)) :=
  match s with
  | '\x22' :: '\x22' :: '\x22' :: rest =>
    some (readLines '\x22' (fun s => readBasicBody true (s.length + 1) s) rest)
  | '\x22' :: rest => some (readBasic rest)
  | '\x27' :: '\x27' :: '\x27' :: rest => some (readLines '\x27' readLiteralLinesBody rest)
  | '\x27' :: rest => some (readLiteral rest)
  | _ => none

/-! ## Numbers -/

/-- Reads further digits, each after at most one underscore. -/
def moreDigits (isDigit : Char → Bool) : List Char → List Char × List Char
  | [] => ([], [])
  | [c] => if isDigit c then ([c], []) else ([], [c])
  | c :: d :: rest =>
    if isDigit c then
      let (digits, rest) := moreDigits isDigit (d :: rest)
      (c :: digits, rest)
    else if c = '_' ∧ isDigit d then
      let (digits, rest) := moreDigits isDigit rest
      (d :: digits, rest)
    else ([], c :: d :: rest)

/-- Reads digits with single underscores between them. -/
def readDigits? (isDigit : Char → Bool) : List Char → Option (List Char × List Char)
  | [] => none
  | c :: rest =>
    if isDigit c then
      let (digits, rest) := moreDigits isDigit rest
      some (c :: digits, rest)
    else none

/-- Reads the digits of a natural number, which do not start with a superfluous zero. -/
def readWhole? : List Char → Option (List Char × List Char)
  | '0' :: rest => some (['0'], rest)
  | s => readDigits? Text.isAsciiDigit s

/-- Whether a character is a digit in a base of at most sixteen. -/
def isDigitIn (base : Nat) (c : Char) : Bool :=
  match Text.hexValue? c with
  | some v => v < base
  | none => false

/-- The base that a letter after a zero names. -/
def namedBase? : Char → Option Nat
  | 'x' => some 16
  | 'o' => some 8
  | 'b' => some 2
  | _ => none

/-- Reads an integer in a base that it names. -/
def readBased? : List Char → Option (Int × List Char)
  | '0' :: letter :: rest => do
    let base ← namedBase? letter
    let (digits, rest) ← readDigits? (isDigitIn base) rest
    return (Numeral.ofDigits base (digits.filterMap Text.hexValue?), rest)
  | _ => none

/-- Reads the digits after a decimal point, if there is one with digits. -/
def readFraction? : List Char → Option (List Char × List Char)
  | '.' :: rest => readDigits? Text.isAsciiDigit rest
  | _ => none

/-- Reads an exponent, if there is one. -/
def readExponent? : List Char → Option (Int × List Char)
  | e :: rest =>
    if e = 'e' ∨ e = 'E' then do
      let (isNegative, rest) := Numeral.readSign rest
      let (digits, rest) ← readDigits? Text.isAsciiDigit rest
      let n : Int := Numeral.ofDigits 10 (digits.filterMap Text.hexValue?)
      return (if isNegative then -n else n, rest)
    else none
  | [] => none

/-- Reads a decimal number, which is an integer unless it has a point or an exponent. -/
def readDecimal? (s : List Char) : Option (Except Error (Value × List Char)) := do
  let (isNegative, s) := Numeral.readSign s
  let (whole, s) ← readWhole? s
  let fraction? := readFraction? s
  let (fraction, s) := fraction?.getD ([], s)
  let exponent? := readExponent? s
  let (exponent, s) := exponent?.getD (0, s)
  let digits := (whole ++ fraction).filterMap Text.hexValue?
  if fraction?.isSome ∨ exponent?.isSome then
    let x := Binary64.ofDecimal isNegative (Numeral.ofDigits 10 digits) (exponent - fraction.length)
    return .ok (.float x, s)
  else
    return match Numeral.readDecimal digits with
      | .ok n => .ok (.integer (if isNegative then -n else n), s)
      | .error e => .error (.numeral e)

/-- Reads a number that is written as a word. -/
def readNumberWord? (s : List Char) : Option (Value × List Char) :=
  let (isNegative, s) := Numeral.readSign s
  match s with
  | 'i' :: 'n' :: 'f' :: rest => some (.float (.infinite isNegative), rest)
  | 'n' :: 'a' :: 'n' :: rest => some (.float .nan, rest)
  | _ => none

/-! ## Days and times -/

/-- Reads a number of exactly `count` digits between `low` and `high`. -/
def readFixed? (count low high : Nat) (s : List Char) : Option (Nat × List Char) :=
  let chars := s.take count
  let n := Numeral.ofDigits 10 (chars.filterMap Text.hexValue?)
  if chars.length = count ∧ chars.all Text.isAsciiDigit ∧ low ≤ n ∧ n ≤ high then
    some (n, s.drop count)
  else none

/-- Reads `low` to `high` in two digits, after a mark. -/
def readMarked? (mark : Char) (low high : Nat) : List Char → Option (Nat × List Char)
  | c :: rest => if c = mark then readFixed? 2 low high rest else none
  | [] => none

/-- Reads the parts of a second behind its point, of which six digits count. -/
def readMicroseconds (s : List Char) : Nat × List Char :=
  match s with
  | '.' :: rest =>
    match rest.takeWhile Text.isAsciiDigit with
    | [] => (0, s)
    | digits =>
      let six := ((digits.take 6).filterMap Text.hexValue?).rightpad 6 0
      (Numeral.ofDigits 10 six, rest.drop digits.length)
  | _ => (0, s)

/-- Reads a time of the day. -/
def readTime? (s : List Char) : Option (Time × List Char) := do
  let (hour, s) ← readFixed? 2 0 23 s
  let (minute, s) ← readMarked? ':' 0 59 s
  let (second, s) ← readMarked? ':' 0 59 s
  let (microsecond, s) := readMicroseconds s
  return ({ hour, minute, second, microsecond }, s)

/-- Reads the distance from universal time in minutes, if there is one. -/
def readOffset? : List Char → Option (Int × List Char)
  | c :: rest =>
    if c = 'Z' ∨ c = 'z' then some (0, rest)
    else if c = '+' ∨ c = '-' then do
      let (hours, rest) ← readFixed? 2 0 23 rest
      let (minutes, rest) ← readMarked? ':' 0 59 rest
      let n : Int := 60 * hours + minutes
      return (if c = '-' then -n else n, rest)
    else none
  | [] => none

/-- Reads the time that follows a day, if there is one. -/
def readTimeAfterDate? : List Char → Option (Time × List Char)
  | c :: rest => if c = 'T' ∨ c = 't' ∨ c = ' ' then readTime? rest else none
  | [] => none

/-- The number of days of a month. -/
def daysOfMonth (year month : Nat) : Nat :=
  if month = 2 then if year % 4 = 0 ∧ (year % 100 ≠ 0 ∨ year % 400 = 0) then 29 else 28
  else if month = 4 ∨ month = 6 ∨ month = 9 ∨ month = 11 then 30
  else 31

/-- Whether the calendar has the day. -/
def Date.isReal (d : Date) : Bool :=
  1 ≤ d.year && d.day ≤ daysOfMonth d.year d.month

/-- Reads a day, alone or with a time. -/
def readDate? (s : List Char) : Option (Except Error (Value × List Char)) := do
  let (year, s) ← readFixed? 4 0 9999 s
  let (month, s) ← readMarked? '-' 1 12 s
  let (day, s) ← readMarked? '-' 1 31 s
  let d : Date := { year, month, day }
  if !d.isReal then return .error .malformed
  match readTimeAfterDate? s with
  | none => return .ok (.date d, s)
  | some (t, s) =>
    match readOffset? s with
    | none => return .ok (.moment d t none, s)
    | some (offset, s) => return .ok (.moment d t (some offset), s)

/-! ## All scalars -/

/-- Reads a value that holds no others. -/
def readScalar : Reader Value := fun s =>
  match readString? s with
  | some read => read.map fun (text, rest) => (.string text, rest)
  | none =>
  match after? "true".toList s with
  | some rest => .ok (.boolean true, rest)
  | none =>
  match after? "false".toList s with
  | some rest => .ok (.boolean false, rest)
  | none =>
  match readDate? s with
  | some read => read
  | none =>
  match readTime? s with
  | some (t, rest) => .ok (.time t, rest)
  | none =>
  match readBased? s with
  | some (n, rest) => .ok (.integer n, rest)
  | none =>
  match readDecimal? s with
  | some read => read
  | none =>
  match readNumberWord? s with
  | some read => .ok read
  | none => .error .malformed

end TinyMips.Toml
