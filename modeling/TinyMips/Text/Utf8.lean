/-!
# UTF-8

Reading bytes as UTF-8. A malformed sequence is reported with the position of its first byte,
the number of its bytes that could have belonged to a character, and what is wrong with it.
-/

namespace TinyMips.Text

/-- What is wrong with a byte sequence. -/
inductive Utf8Fault where
  /-- no character starts with the byte -/
  | invalidStart
  /-- the next byte does not continue the character -/
  | invalidContinuation
  /-- the bytes end inside the character -/
  | unexpectedEnd
  deriving DecidableEq, Repr

/-- A malformed byte sequence. -/
structure Utf8Error where
  /-- what is wrong -/
  fault : Utf8Fault
  /-- the first of the bytes -/
  byte : UInt8
  /-- how many bytes stand before it -/
  position : Nat
  /-- how many bytes belong to the malformed sequence -/
  width : Nat
  deriving DecidableEq, Repr

/-- What the first byte of a character says about the rest of it. -/
structure Lead where
  /-- the bits that the first byte gives to the code point -/
  bits : Nat
  /-- how many bytes follow -/
  count : Nat
  /-- the least value of the second byte -/
  low : UInt8 := 0x80
  /-- the greatest value of the second byte -/
  high : UInt8 := 0xbf
  deriving DecidableEq, Repr

/-- Reads the first byte of a character. The bounds on the second byte leave out spellings that
are longer than necessary, surrogates, and code points above `U+10FFFF`. -/
def Lead.ofByte? (b : UInt8) : Option Lead :=
  let n := b.toNat
  if b < 0x80 then some { bits := n, count := 0 }
  else if b < 0xc2 then none
  else if b < 0xe0 then some { bits := n % 0x20, count := 1 }
  else if b = 0xe0 then some { bits := n % 0x10, count := 2, low := 0xa0 }
  else if b = 0xed then some { bits := n % 0x10, count := 2, high := 0x9f }
  else if b < 0xf0 then some { bits := n % 0x10, count := 2 }
  else if b = 0xf0 then some { bits := n % 0x08, count := 3, low := 0x90 }
  else if b < 0xf4 then some { bits := n % 0x08, count := 3 }
  else if b = 0xf4 then some { bits := n % 0x08, count := 3, high := 0x8f }
  else none

/-- Reads `count` continuation bytes, the first of them between `low` and `high`. `seen` bytes of
the character stand before them, and the answer for a malformed sequence is its fault and its
width. -/
def readContinuation (seen bits : Nat) (low high : UInt8) :
    Nat → List UInt8 → Except (Utf8Fault × Nat) Nat
  | 0, _ => .ok bits
  | _ + 1, [] => .error (.unexpectedEnd, seen)
  | count + 1, b :: rest =>
    if low ≤ b ∧ b ≤ high then
      readContinuation (seen + 1) (bits * 0x40 + b.toNat % 0x40) 0x80 0xbf count rest
    else
      .error (.invalidContinuation, seen)

/-- Reads one character from the bytes `b :: rest`, and says how many bytes of `rest` it takes. -/
def readCharacter (b : UInt8) (rest : List UInt8) : Except (Utf8Fault × Nat) (Char × Nat) :=
  match Lead.ofByte? b with
  | none => .error (.invalidStart, 1)
  | some lead =>
    (readContinuation 1 lead.bits lead.low lead.high lead.count rest).map fun n =>
      (Char.ofNat n, lead.count)

/-- Reads all characters; `position` bytes stand before them. -/
def decodeUtf8From (position : Nat) : List UInt8 → Except Utf8Error (List Char)
  | [] => .ok []
  | b :: rest =>
    match readCharacter b rest with
    | .error (fault, width) => .error { fault, byte := b, position, width }
    | .ok (c, count) => do
      let chars ← decodeUtf8From (position + count + 1) (rest.drop count)
      return c :: chars
  termination_by bytes => bytes.length
  decreasing_by simp only [List.length_drop, List.length_cons]; omega

/-- The characters that the bytes spell. -/
def decodeUtf8 (bytes : List UInt8) : Except Utf8Error (List Char) :=
  decodeUtf8From 0 bytes

/-- The words for a fault. -/
def Utf8Fault.message : Utf8Fault → String
  | .invalidStart => "invalid start byte"
  | .invalidContinuation => "invalid continuation byte"
  | .unexpectedEnd => "unexpected end of data"

end TinyMips.Text
