import TinyMips.Proofs.WordArithmetic

/-!
# Multiplication

Two integers are multiplied as the words that they stand for, and the product is kept in two words.
The high one is the product over `2 ^ 32`, rounded down, and that is a word before it is wrapped:
signed words are at most `2 ^ 31` in size, so their product is at most `2 ^ 62`, and unsigned words
have a product below `2 ^ 64` (`Mode.inRange_mul_ediv`). The main statement is that no bit of the
product is lost (`multiply_splits`).
-/

namespace TinyMips

theorem natAbs_mul_le {a b : Int} {n : Nat} (ha : a.natAbs ≤ n) (hb : b.natAbs ≤ n) :
    (a * b).natAbs ≤ n * n := by
  rw [Int.natAbs_mul]
  exact Nat.mul_le_mul ha hb

/-- The product of two words over the number of words, rounded down, is a word. -/
theorem Mode.inRange_mul_ediv {mode : Mode} {a b : Int} (ha : mode.InRange a)
    (hb : mode.InRange b) : mode.InRange (a * b / wordSize) := by
  cases mode with
  | signed =>
    simp only [InRange] at ha hb
    have size : (a * b).natAbs ≤ 0x80000000 * 0x80000000 :=
      natAbs_mul_le (by omega) (by omega)
    simp only [InRange, wordSize]
    omega
  | unsigned =>
    have nonneg : 0 ≤ a * b := Int.mul_nonneg ha.1 hb.1
    simp only [InRange] at ha hb
    have size : (a * b).natAbs ≤ 0xffffffff * 0xffffffff :=
      natAbs_mul_le (by omega) (by omega)
    simp only [InRange, wordSize]
    omega

/-- What is asked of the two words of a product. -/
structure Product.Splits (p : Product) (mode : Mode) (a b : Int) : Prop where
  /-- the high part is a word -/
  high : mode.InRange p.high
  /-- the low part is a word -/
  low : mode.InRange p.low
  /-- the product is made up again of the two, exactly; of the low part the residue counts -/
  exact : a * b = p.high * 2 ^ 32 + p.low % 2 ^ 32
  /-- the high part is the product over `2 ^ 32`, rounded down -/
  floor : p.high = ⌊(a * b / 2 ^ 32 : ℚ)⌋
  /-- which is not changed by wrapping it -/
  unwrapped : mode.wrap ⌊(a * b / 2 ^ 32 : ℚ)⌋ = ⌊(a * b / 2 ^ 32 : ℚ)⌋

theorem floor_mul_div (a b : Int) : ⌊(a * b / 2 ^ 32 : ℚ)⌋ = a * b / wordSize := by
  have floor := floor_div_two_pow (a * b) 32
  push_cast at floor
  exact floor

/-- **Multiplication loses no bit.** Let `a` and `b` be the words that two integers stand for. The
product of the integers has two words which make up `a * b` exactly. The high one is `a * b` over
`2 ^ 32`, rounded down, which does not have to be wrapped. -/
theorem multiply_splits {mode : Mode} {lhs rhs a b : Int} (ha : mode.IsWordOf a lhs)
    (hb : mode.IsWordOf b rhs) : (multiply mode lhs rhs).Splits mode a b := by
  obtain rfl := Mode.isWordOf_iff.1 ha
  obtain rfl := Mode.isWordOf_iff.1 hb
  generalize hp : mode.wrap lhs * mode.wrap rhs = p
  have product : multiply mode lhs rhs = ⟨mode.wrap (p / wordSize), mode.wrap p⟩ := by
    rw [multiply, hp]
  have unwrapped : mode.wrap (p / wordSize) = p / wordSize :=
    mode.wrap_of_inRange (hp ▸ Mode.inRange_mul_ediv ha.1 hb.1)
  have floor : ⌊(mode.wrap lhs * mode.wrap rhs / 2 ^ 32 : ℚ)⌋ = p / wordSize := by
    rw [floor_mul_div, hp]
  rw [product]
  constructor
  case high => exact mode.inRange_wrap _
  case low => exact mode.inRange_wrap _
  case exact =>
    have residue : mode.wrap p % wordSize = p % wordSize := mode.wrap_emod p
    have division : p = p / wordSize * wordSize + p % wordSize := (Int.ediv_mul_add_emod p _).symm
    change _ = mode.wrap (p / wordSize) * wordSize + mode.wrap p % wordSize
    rw [hp, unwrapped, residue, ← division]
  case floor => rw [floor, unwrapped]
  case unwrapped => rw [floor, unwrapped]

/-- The greatest product of signed words, and that of unsigned words, of integers that are not all
words of the mode. -/
theorem multiply_splits_greatest :
    Mode.signed.IsWordOf leastWord 0x80000000 ∧
      Mode.unsigned.IsWordOf greatestWord (-1) ∧
      multiply .signed 0x80000000 0x80000000 = ⟨0x40000000, 0⟩ ∧
      multiply .unsigned (-1) (-1) = ⟨0xfffffffe, 1⟩ ∧
      leastWord * leastWord = 0x40000000 * 2 ^ 32 + 0 ∧
      greatestWord * greatestWord = 0xfffffffe * 2 ^ 32 + 1 := by
  have least : Mode.signed.IsWordOf leastWord 0x80000000 := by decide
  have greatest : Mode.unsigned.IsWordOf greatestWord (-1) := by decide
  have signed : multiply .signed 0x80000000 0x80000000 = ⟨0x40000000, 0⟩ := by decide
  have unsigned : multiply .unsigned (-1) (-1) = ⟨0xfffffffe, 1⟩ := by decide
  have splits := (multiply_splits least least).exact
  have splits' := (multiply_splits greatest greatest).exact
  rw [signed] at splits
  rw [unsigned] at splits'
  exact ⟨least, greatest, signed, unsigned, splits, splits'⟩

/-- A negative product is rounded down, so its low word is not negative. -/
example : multiply .signed (-1) 3 = ⟨-1, -3⟩ := by decide

end TinyMips
