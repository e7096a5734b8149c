import Mathlib.Data.Rat.Floor
import TinyMips.Proofs.Bounds

/-!
# Division

Two integers are divided as the words that they stand for, and the quotient is rounded toward zero.
Quotient and remainder are wrapped to words in the end, which leaves them as they are: the remainder
is no greater in size than the dividend (`Mode.inRange_tmod`), and so is the quotient, which is a
word again unless it is that of the least signed word by `-1` (`Mode.inRange_tdiv`). The main
statement says what a division answers, with the one pair for which it has to wrap
(`divide_truncates`).
-/

namespace TinyMips

/-! ## Words of integers -/

/-- Whether a word stands for an integer: it is in the range of the mode, and congruent to the
integer modulo `2 ^ 32`. -/
def Mode.IsWordOf (mode : Mode) (a n : Int) : Prop :=
  mode.InRange a ∧ a % wordSize = n % wordSize

instance (mode : Mode) (a n : Int) : Decidable (mode.IsWordOf a n) :=
  inferInstanceAs (Decidable (_ ∧ _))

/-- There is one such word, which is the integer wrapped. -/
theorem Mode.isWordOf_iff {mode : Mode} {a n : Int} : mode.IsWordOf a n ↔ a = mode.wrap n := by
  constructor
  · rintro ⟨hrange, hcongruent⟩
    rw [← mode.wrap_of_inRange hrange, mode.wrap_eq_wrap_iff]
    exact hcongruent
  · rintro rfl
    exact ⟨mode.inRange_wrap n, mode.wrap_emod n⟩

/-! ## Rounding toward zero -/

/-- The integer next to a rational number on the side of zero. -/
def roundTowardZero (x : ℚ) : Int :=
  if 0 ≤ x then ⌊x⌋ else ⌈x⌉

theorem roundTowardZero_div_natCast (a : Int) (n : Nat) :
    roundTowardZero (a / n) = a.tdiv n := by
  rw [roundTowardZero]
  rcases Int.le_total 0 a with ha | ha
  · have quotient : (0 : ℚ) ≤ a / n := by positivity
    rw [if_pos quotient, Rat.floor_intCast_div_natCast, Int.tdiv_eq_ediv_of_nonneg ha]
  · have opposite : a.tdiv n = -((-a) / (n : Int)) := by
      rw [← Int.tdiv_eq_ediv_of_nonneg (Int.neg_nonneg_of_nonpos ha), Int.neg_tdiv, Int.neg_neg]
    split
    case isTrue hquotient =>
      -- The quotient is zero, where rounding up and rounding down are the same.
      have zero : (a / n : ℚ) = 0 := le_antisymm
        (div_nonpos_of_nonpos_of_nonneg (by exact_mod_cast ha) n.cast_nonneg) hquotient
      rw [opposite, ← Rat.ceil_intCast_div_natCast, zero, Int.floor_zero, Int.ceil_zero]
    case isFalse => rw [Rat.ceil_intCast_div_natCast, opposite]

/-- The quotient of integers that drops the fraction is the rational quotient rounded toward
zero. -/
theorem roundTowardZero_div (a b : Int) : roundTowardZero (a / b) = a.tdiv b := by
  obtain ⟨n, rfl | rfl⟩ := b.eq_nat_or_neg
  · exact_mod_cast roundTowardZero_div_natCast a n
  · have moved : (a / (-(n : Int) : Int) : ℚ) = (-a : Int) / n := by
      push_cast
      rw [div_neg, neg_div]
    rw [moved, roundTowardZero_div_natCast, Int.neg_tdiv, Int.tdiv_neg]

/-! ## Quotients and remainders of words -/

/-- The one pair of words whose quotient is no word: it is greater by one than the greatest signed
word. -/
def Overflows (mode : Mode) (a b : Int) : Prop :=
  mode = .signed ∧ a = leastWord ∧ b = -1

/-- A remainder that is not zero has the sign of the dividend. -/
theorem sign_tmod (a b : Int) : a.tmod b = 0 ∨ (a.tmod b).sign = a.sign := by
  rcases Int.lt_trichotomy a 0 with ha | rfl | ha
  · have opposite := Int.tmod_nonneg b (Int.neg_nonneg_of_nonpos (Int.le_of_lt ha))
    rw [Int.neg_tmod] at opposite
    by_cases hzero : a.tmod b = 0
    · exact .inl hzero
    · have negative : a.tmod b < 0 := by omega
      exact .inr ((Int.sign_eq_neg_one_of_neg negative).trans (Int.sign_eq_neg_one_of_neg ha).symm)
  · exact .inl (Int.zero_tmod b)
  · have nonneg := Int.tmod_nonneg b (Int.le_of_lt ha)
    by_cases hzero : a.tmod b = 0
    · exact .inl hzero
    · have positive : 0 < a.tmod b := by omega
      exact .inr ((Int.sign_eq_one_of_pos positive).trans (Int.sign_eq_one_of_pos ha).symm)

namespace Mode

variable {mode : Mode} {a b : Int}

/-- An integer between zero and a word is a word. -/
theorem InRange.of_natAbs_le {v : Int} (ha : mode.InRange a) (hsize : v.natAbs ≤ a.natAbs)
    (hsign : v = 0 ∨ v.sign = a.sign) : mode.InRange v := by
  have same : (0 ≤ a → 0 ≤ v) ∧ (a < 0 → v ≤ 0) := by
    rcases hsign with rfl | hsign
    · exact ⟨fun _ => Int.le_refl 0, fun _ => Int.le_refl 0⟩
    · refine ⟨fun h => ?_, fun h => ?_⟩
      · rw [← Int.sign_nonneg_iff] at h ⊢
        omega
      · rw [← Int.sign_neg_iff, ← hsign, Int.sign_neg_iff] at h
        omega
  cases mode <;> simp only [InRange] at * <;> omega

/-- The remainder of a word is a word. -/
theorem inRange_tmod (ha : mode.InRange a) : mode.InRange (a.tmod b) := by
  refine ha.of_natAbs_le ?_ (sign_tmod a b)
  rw [Int.natAbs_tmod]
  exact Nat.mod_le _ _

/-- The quotient of two words is a word, but for one pair. -/
theorem inRange_tdiv (ha : mode.InRange a) (hb : mode.InRange b)
    (hpair : ¬Overflows mode a b) : mode.InRange (a.tdiv b) := by
  have size := Int.natAbs_tdiv_le_natAbs a b
  cases mode with
  | unsigned =>
    have nonneg := Int.tdiv_nonneg ha.1 hb.1
    simp only [InRange] at *
    omega
  | signed =>
    -- A quotient of greater size than all signed words but the least is by one or minus one.
    by_cases hone : b.natAbs ≤ 1
    · have cases_b : b = 0 ∨ b = 1 ∨ b = -1 := by omega
      rcases cases_b with rfl | rfl | rfl
      · rw [Int.tdiv_zero]
        decide
      · rwa [Int.tdiv_one]
      · have bound : a ≠ leastWord := fun h => hpair ⟨rfl, h, rfl⟩
        rw [Int.tdiv_neg, Int.tdiv_one]
        simp only [InRange, leastWord] at *
        omega
    · have half : (a.tdiv b).natAbs ≤ a.natAbs / 2 := by
        rw [Int.natAbs_tdiv]
        exact Nat.div_le_div_left (by omega) (by decide)
      simp only [InRange] at *
      omega

end Mode

/-! ## Divisions -/

/-- What is asked of the division of a word by another. -/
structure Division.Truncates (d : Division) (mode : Mode) (a b : Int) : Prop where
  /-- the remainder is a word -/
  remainder : mode.InRange d.remainder
  /-- the quotient is a word -/
  quotient : mode.InRange d.quotient
  /-- the dividend is made up again of the two, modulo `2 ^ 32` -/
  congruent : a % wordSize = (d.quotient * b + d.remainder) % wordSize
  /-- the remainder is smaller in size than the divisor -/
  smaller : d.remainder.natAbs < b.natAbs
  /-- the remainder is zero or has the sign of the dividend -/
  sign : d.remainder = 0 ∨ d.remainder.sign = a.sign
  /-- the dividend is made up exactly, and the quotient rounded toward zero, but for one pair -/
  exact : ¬Overflows mode a b →
    a = d.quotient * b + d.remainder ∧ d.quotient = roundTowardZero (a / b)
  /-- for that pair there is no remainder, and the quotient is the dividend -/
  wrapped : Overflows mode a b → d = ⟨0, leastWord⟩

/-- The quotient that drops the fraction and its remainder, wrapped to words. -/
theorem truncates_wrap {mode : Mode} {a b : Int} (ha : mode.InRange a) (hb : mode.InRange b)
    (hzero : b ≠ 0) :
    Division.Truncates ⟨mode.wrap (a.tmod b), mode.wrap (a.tdiv b)⟩ mode a b := by
  have remainder : mode.wrap (a.tmod b) = a.tmod b := mode.wrap_of_inRange (Mode.inRange_tmod ha)
  have madeUp : a = a.tdiv b * b + a.tmod b := (Int.tdiv_mul_add_tmod a b).symm
  rw [remainder]
  constructor
  case remainder => exact Mode.inRange_tmod ha
  case quotient => exact mode.inRange_wrap _
  case congruent =>
    change a % wordSize = (mode.wrap (a.tdiv b) * b + a.tmod b) % wordSize
    conv_lhs => rw [madeUp]
    rw [Int.add_emod, Int.mul_emod, ← mode.wrap_emod (a.tdiv b), ← Int.mul_emod, ← Int.add_emod]
  case smaller =>
    change (a.tmod b).natAbs < b.natAbs
    rw [Int.natAbs_tmod]
    exact Nat.mod_lt _ (Int.natAbs_pos.2 hzero)
  case sign => exact sign_tmod a b
  case exact =>
    intro hpair
    have quotient : mode.wrap (a.tdiv b) = a.tdiv b :=
      mode.wrap_of_inRange (Mode.inRange_tdiv ha hb hpair)
    rw [quotient, roundTowardZero_div]
    exact ⟨madeUp, rfl⟩
  case wrapped =>
    rintro ⟨rfl, rfl, rfl⟩
    decide

/-- **Division truncates.** Let `a` and `b` be the words that two integers stand for. Dividing the
integers fails just if the second is congruent to zero modulo `2 ^ 32`. If it is not, the answer is
the truncated quotient of `a` by `b` with its remainder: both are words, the remainder is smaller
than `b` and zero or of the sign of `a`, and the two make `a` up, exactly and not just modulo
`2 ^ 32`. Only for the least signed word and `-1` does the quotient wrap, to the least signed
word. -/
theorem divide_truncates {mode : Mode} {lhs rhs a b : Int} (ha : mode.IsWordOf a lhs)
    (hb : mode.IsWordOf b rhs) :
    (divide mode lhs rhs = .error (.fault .divisionByZero) ↔ rhs % wordSize = 0) ∧
      (rhs % wordSize ≠ 0 →
        ∃ d, divide mode lhs rhs = .ok d ∧ d.Truncates mode a b) := by
  obtain rfl := Mode.isWordOf_iff.1 ha
  obtain rfl := Mode.isWordOf_iff.1 hb
  have zero_iff : mode.wrap rhs = 0 ↔ rhs % wordSize = 0 := by
    have zero : mode.wrap 0 = 0 := by cases mode <;> rfl
    rw [← zero, mode.wrap_eq_wrap_iff, zero]
    rfl
  by_cases hzero : mode.wrap rhs = 0
  · have refused : divide mode lhs rhs = .error (.fault .divisionByZero) :=
      (divide_eq mode lhs rhs).trans (if_pos hzero)
    have residue := zero_iff.1 hzero
    exact ⟨iff_of_true refused residue, fun h => absurd residue h⟩
  · have answered : divide mode lhs rhs = .ok _ := (divide_eq mode lhs rhs).trans (if_neg hzero)
    refine ⟨iff_of_false (by simp [answered]) (mt zero_iff.2 hzero), fun _ => ?_⟩
    exact ⟨_, answered, truncates_wrap ha.1 hb.1 hzero⟩

/-- The pair for which the quotient wraps, given by two integers that are no signed words: the
dividend is not made up again. -/
theorem divide_truncates_least_word :
    Mode.signed.IsWordOf leastWord 0x80000000 ∧ Mode.signed.IsWordOf (-1) 0xffffffff ∧
      Overflows .signed leastWord (-1) ∧
      divide .signed 0x80000000 0xffffffff = .ok ⟨0, leastWord⟩ ∧
      leastWord ≠ leastWord * -1 + 0 := by
  have dividend : Mode.signed.IsWordOf leastWord 0x80000000 := by decide
  have divisor : Mode.signed.IsWordOf (-1) 0xffffffff := by decide
  have pair : Overflows .signed leastWord (-1) := ⟨rfl, rfl, rfl⟩
  obtain ⟨d, hd, htruncates⟩ := (divide_truncates dividend divisor).2 (by decide)
  rw [htruncates.wrapped pair] at hd
  exact ⟨dividend, divisor, pair, hd, by decide⟩

example : divide .signed (-7) 2 = .ok ⟨-1, -3⟩ ∧ divide .unsigned (-7) 2 = .ok ⟨1, 0x7ffffffc⟩ := by
  decide

end TinyMips
