import TinyMips.Fault
import TinyMips.Word

/-!
# Arithmetic

What instructions compute. Operands are integers of any size; all but the amount of a shift are
wrapped to words first, and so is every result. The main statement is that a division answers the
truncated quotient and its remainder, which it computes from the sizes of the two words
(`divide_eq`).
-/

namespace TinyMips

/-- The operations of two operands and one result. -/
inductive Operation where
  /-- the sum -/
  | add
  /-- the difference -/
  | sub
  /-- the bits that both operands have -/
  | and
  /-- the bits that either operand has -/
  | or
  /-- the first operand shifted to the left by the second -/
  | shiftLeft
  /-- the first operand shifted to the right by the second, with zeros from the left -/
  | shiftRight
  /-- one if the first operand is less than the second, else zero -/
  | lessThan
  deriving DecidableEq, Repr

/-- The bits of an integer's word, as a natural number below `2 ^ 32`. -/
def bits (n : Int) : Nat :=
  (Mode.unsigned.wrap n).toNat

/-- The amount of a shift, which lies between zero and `greatestShift`. Amounts too long to be
named in the fault's message fail as numerals. -/
def shiftAmount (n : Int) : Except Failure Nat :=
  if 0 ≤ n ∧ n ≤ greatestShift then .ok n.toNat
  else if Numeral.Writable n then .error (.fault (.shiftOutOfRange n))
  else .error (.numeral .tooLongToWrite)

/-- The result of an operation on words of the given mode. -/
def Operation.apply (op : Operation) (mode : Mode) (a b : Int) : Except Failure Int :=
  match op with
  | .add => .ok (mode.wrap (mode.wrap a + mode.wrap b))
  | .sub => .ok (mode.wrap (mode.wrap a - mode.wrap b))
  | .and => .ok (mode.wrap (bits a &&& bits b : Nat))
  | .or => .ok (mode.wrap (bits a ||| bits b : Nat))
  | .shiftLeft => (shiftAmount b).map fun amount => mode.wrap (bits a <<< amount : Nat)
  | .shiftRight => (shiftAmount b).map fun amount => mode.wrap (bits a >>> amount : Nat)
  | .lessThan => .ok (if mode.wrap a < mode.wrap b then 1 else 0)

/-- The two words of a product. -/
structure Product where
  /-- the part above the low word, rounded down -/
  high : Int
  /-- the low word -/
  low : Int
  deriving DecidableEq, Repr

/-- The product of two words. -/
def multiply (mode : Mode) (a b : Int) : Product :=
  let product := mode.wrap a * mode.wrap b
  { high := mode.wrap (product / wordSize), low := mode.wrap product }

/-- The result of a division. -/
structure Division where
  /-- what is left over, with the sign of the dividend -/
  remainder : Int
  /-- the quotient rounded toward zero -/
  quotient : Int
  deriving DecidableEq, Repr

/-- The quotient of two integers: that of their sizes, with a minus in front if one of the two is
negative and the other is not. -/
def quotient (a b : Int) : Int :=
  let size : Int := a.natAbs / b.natAbs
  if a < 0 ↔ b < 0 then size else -size

/-- The quotient and the remainder of two words. The remainder is what the quotient leaves of the
dividend. -/
def divide (mode : Mode) (a b : Int) : Except Failure Division :=
  let dividend := mode.wrap a
  let divisor := mode.wrap b
  if divisor = 0 then .error (.fault .divisionByZero)
  else
    let quotient := quotient dividend divisor
    let remainder := dividend - quotient * divisor
    .ok { remainder := mode.wrap remainder, quotient := mode.wrap quotient }

/-- The quotient is the one that drops the fraction. -/
theorem quotient_eq_tdiv (a b : Int) : quotient a b = a.tdiv b := by
  simp only [quotient]
  -- A size is the integer or its negation, so the quotient of the sizes has no sign to drop.
  rcases Int.lt_or_le a 0 with ha | ha <;> rcases Int.lt_or_le b 0 with hb | hb
  · rw [if_pos (iff_of_true ha hb), Int.ofNat_natAbs_of_nonpos (Int.le_of_lt ha),
      Int.ofNat_natAbs_of_nonpos (Int.le_of_lt hb), ← Int.tdiv_eq_ediv_of_nonneg (by omega),
      Int.neg_tdiv_neg]
  · rw [if_neg (by omega), Int.ofNat_natAbs_of_nonpos (Int.le_of_lt ha), Int.natAbs_of_nonneg hb,
      ← Int.tdiv_eq_ediv_of_nonneg (by omega), Int.neg_tdiv, Int.neg_neg]
  · rw [if_neg (by omega), Int.natAbs_of_nonneg ha, Int.ofNat_natAbs_of_nonpos (Int.le_of_lt hb),
      ← Int.tdiv_eq_ediv_of_nonneg ha, Int.tdiv_neg, Int.neg_neg]
  · rw [if_pos (by omega), Int.natAbs_of_nonneg ha, Int.natAbs_of_nonneg hb,
      ← Int.tdiv_eq_ediv_of_nonneg ha]

/-- What the quotient leaves is the remainder with the sign of the dividend. -/
theorem sub_quotient_mul (a b : Int) : a - quotient a b * b = a.tmod b := by
  rw [quotient_eq_tdiv, Int.tmod_def, Int.mul_comm]

/-- Words are divided with the quotient that drops the fraction, and with its remainder. -/
theorem divide_eq (mode : Mode) (a b : Int) :
    divide mode a b =
      if mode.wrap b = 0 then .error (.fault .divisionByZero)
      else .ok { remainder := mode.wrap ((mode.wrap a).tmod (mode.wrap b)),
                 quotient := mode.wrap ((mode.wrap a).tdiv (mode.wrap b)) } := by
  simp only [divide, sub_quotient_mul]
  simp only [quotient_eq_tdiv]

end TinyMips
