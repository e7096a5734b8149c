/-!
# Words

Registers hold integers, and instructions look at them through 32-bit words: `Mode.wrap` picks,
of all the integers congruent to a given one modulo `2 ^ 32`, the one in the range of the mode.
The main statements are that the result is congruent to the argument (`Mode.wrap_emod`), lies in
the range (`Mode.inRange_wrap`) and depends on the residue alone (`Mode.wrap_eq_wrap_iff`).
-/

namespace TinyMips

/-- The number of integers that a word can stand for, which is `2 ^ 32`. -/
abbrev wordSize : Nat := 0x100000000

/-- The least value a register may be given at the start: the least signed word. -/
def leastWord : Int := -0x80000000

/-- The greatest value a register may be given at the start: the greatest unsigned word. -/
def greatestWord : Int := 0xffffffff

/-- The greatest amount by which a word can be shifted. -/
def greatestShift : Int := 31

/-- How the 32 bits of a word are read as an integer. -/
inductive Mode where
  /-- as two's complement, from `-2 ^ 31` up to `2 ^ 31 - 1` -/
  | signed
  /-- as a natural number below `2 ^ 32` -/
  | unsigned
  deriving DecidableEq, Repr

namespace Mode

/-- The integer in the range of the mode that is congruent to `n` modulo `2 ^ 32`. -/
def wrap : Mode → Int → Int
  | .signed, n => n.bmod wordSize
  | .unsigned, n => n % wordSize

/-- The integers that a word read in this mode can be. -/
def InRange : Mode → Int → Prop
  | .signed, n => -0x80000000 ≤ n ∧ n < 0x80000000
  | .unsigned, n => 0 ≤ n ∧ n < 0x100000000

instance (m : Mode) (n : Int) : Decidable (m.InRange n) := by
  cases m <;> unfold InRange <;> infer_instance

/-- Wrapping stays in the residue class. -/
theorem wrap_emod (m : Mode) (n : Int) : m.wrap n % wordSize = n % wordSize := by
  cases m
  · exact Int.bmod_emod
  · exact Int.emod_emod_of_dvd n (Int.dvd_refl _)

theorem inRange_wrap (m : Mode) (n : Int) : m.InRange (m.wrap n) := by
  cases m
  · have h₁ := @Int.le_bmod n wordSize (by decide)
    have h₂ := @Int.bmod_lt n wordSize (by decide)
    simp only [InRange, wrap, wordSize] at *
    omega
  · have h₁ := Int.emod_nonneg n (b := wordSize) (by decide)
    have h₂ := Int.emod_lt_of_pos n (b := wordSize) (by decide)
    simp only [InRange, wrap, wordSize] at *
    omega

/-- Two integers wrap to the same word exactly when they are congruent. -/
theorem wrap_eq_wrap_iff (m : Mode) (a b : Int) :
    m.wrap a = m.wrap b ↔ a % wordSize = b % wordSize := by
  constructor
  · intro h
    rw [← wrap_emod m a, ← wrap_emod m b, h]
  · intro h
    cases m
    · simp only [wrap, Int.bmod, h]
    · simp only [wrap, h]

/-- A word already in the range is left alone. -/
theorem wrap_of_inRange {m : Mode} {n : Int} (h : m.InRange n) : m.wrap n = n := by
  have size : (wordSize : Int) = 4294967296 := rfl
  cases m
  · simp only [InRange, wrap] at *
    exact Int.bmod_eq_of_le (by omega) (by omega)
  · simp only [InRange, wrap] at *
    exact Int.emod_eq_of_lt (by omega) (by omega)

end Mode

end TinyMips
