import Mathlib.Data.Rat.Floor
import TinyMips.Proofs.Division
import TinyMips.Proofs.ImmediateForms

/-!
# Word arithmetic

Operations take integers of any size and answer words. Whether operands are wrapped before they are
added, or only the sum is, makes no difference (`Mode.wrap_add_wrap`), and the bits that an
operation works on are those of the residue modulo `2 ^ 32` (`natCast_bits`). What is asked of the
answer to each operation is written down with the integers themselves (`Operation.Yields`). The main
statement is that the answers are just those, that only shifts can fail, by their amount alone, that
nothing but residues matters, and which bits are left by a shift to the left and back
(`Operation.apply_exact`).
-/

namespace TinyMips

/-! ## Residues -/

/-- A sum may be wrapped once, in the end. -/
theorem Mode.wrap_add_wrap (mode : Mode) (a b : Int) :
    mode.wrap (mode.wrap a + mode.wrap b) = mode.wrap (a + b) := by
  rw [mode.wrap_eq_wrap_iff, Int.add_emod, mode.wrap_emod, mode.wrap_emod, ← Int.add_emod]

/-- So may a difference. -/
theorem Mode.wrap_sub_wrap (mode : Mode) (a b : Int) :
    mode.wrap (mode.wrap a - mode.wrap b) = mode.wrap (a - b) := by
  rw [mode.wrap_eq_wrap_iff, Int.sub_emod, mode.wrap_emod, mode.wrap_emod, ← Int.sub_emod]

/-- The bits of a word are those of the residue. -/
theorem natCast_bits (n : Int) : (bits n : Int) = n % wordSize :=
  Int.toNat_of_nonneg (Int.emod_nonneg n (by decide))

/-- A quotient by a power of two is rounded down. -/
theorem floor_div_two_pow (n : Int) (k : Nat) : ⌊(n / 2 ^ k : ℚ)⌋ = n / 2 ^ k := by
  have floor := Rat.floor_intCast_div_natCast n (2 ^ k)
  push_cast at floor
  exact floor

/-- Integers that are congruent have the same bits. -/
theorem bits_congr {a b : Int} (h : a % wordSize = b % wordSize) : bits a = bits b :=
  congrArg Int.toNat h

/-- The bits that are kept when a word is shifted to the left and then back are the low ones. -/
theorem bits_shiftLeft_shiftRight (mode : Mode) (a : Int) {k : Nat} (hk : k ≤ 32) :
    (bits (mode.wrap (bits a <<< k : Nat)) >>> k : Nat) = a % 2 ^ (32 - k) := by
  have power : wordSize = 2 ^ (32 - k) * 2 ^ k := by
    rw [← Nat.pow_add, Nat.sub_add_cancel hk]
  have shifted : bits (mode.wrap (bits a <<< k : Nat)) = bits a * 2 ^ k % wordSize := by
    have residue := natCast_bits (mode.wrap (bits a <<< k : Nat))
    rw [mode.wrap_emod, Nat.shiftLeft_eq] at residue
    rw [Nat.shiftLeft_eq]
    exact_mod_cast residue
  have low : bits (mode.wrap (bits a <<< k : Nat)) >>> k = bits a % 2 ^ (32 - k) := by
    rw [shifted, Nat.shiftRight_eq_div_pow, power, Nat.mul_mod_mul_right,
      Nat.mul_div_cancel _ (Nat.two_pow_pos k)]
  have divides : (2 ^ (32 - k) : Int) ∣ wordSize := by
    rw [power]
    push_cast
    exact Int.dvd_mul_right _ _
  rw [low]
  push_cast
  rw [natCast_bits, Int.emod_emod_of_dvd a divides]

/-! ## Results -/

/-- What an operation in a mode is to yield for two integers. -/
inductive Operation.Yields (mode : Mode) (a b : Int) : Operation → Int → Prop where
  /-- the word of the sum -/
  | add {v : Int} (word : mode.IsWordOf v (a + b)) : Yields mode a b .add v
  /-- the word of the difference -/
  | sub {v : Int} (word : mode.IsWordOf v (a - b)) : Yields mode a b .sub v
  /-- the word of the number that has the bits that both residues have -/
  | and {v : Int} {n : Nat} (both : ∀ i, n.testBit i =
      ((a % 2 ^ 32).toNat.testBit i && (b % 2 ^ 32).toNat.testBit i))
      (word : mode.IsWordOf v n) : Yields mode a b .and v
  /-- the word of the number that has the bits that either residue has -/
  | or {v : Int} {n : Nat} (either : ∀ i, n.testBit i =
      ((a % 2 ^ 32).toNat.testBit i || (b % 2 ^ 32).toNat.testBit i))
      (word : mode.IsWordOf v n) : Yields mode a b .or v
  /-- the word of the residue times a power of two, up to `2 ^ 31` -/
  | shiftLeft {v : Int} {k : Nat} (amount : b = k) (short : k ≤ 31)
      (word : mode.IsWordOf v (a % 2 ^ 32 * 2 ^ k)) : Yields mode a b .shiftLeft v
  /-- the word of the residue over a power of two, rounded down -/
  | shiftRight {v : Int} {k : Nat} (amount : b = k) (short : k ≤ 31)
      (word : mode.IsWordOf v ⌊((a % 2 ^ 32 : Int) / 2 ^ k : ℚ)⌋) : Yields mode a b .shiftRight v
  /-- one for words in increasing order -/
  | less {x y : Int} (left : mode.IsWordOf x a) (right : mode.IsWordOf y b) (less : x < y) :
      Yields mode a b .lessThan 1
  /-- zero for others -/
  | notLess {x y : Int} (left : mode.IsWordOf x a) (right : mode.IsWordOf y b) (notLess : ¬x < y) :
      Yields mode a b .lessThan 0

/-- What is asked of an operation in a mode on two integers. -/
structure Operation.IsExact (f : Operation) (mode : Mode) (a b : Int) : Prop where
  /-- the answer is the one that is to be yielded -/
  answer : ∀ v, f.apply mode a b = .ok v ↔ f.Yields mode a b v
  /-- there is none just for shifts by amounts that are no number of bits of a word, which are named
  if they can be written -/
  failure : ∀ e, f.apply mode a b = .error e ↔ f.isShift = true ∧ ¬(0 ≤ b ∧ b ≤ 31) ∧
    e = if Numeral.Writable b then .fault (.shiftOutOfRange b) else .numeral .tooLongToWrite
  /-- integers congruent to the operands do as well, but for the amount of a shift -/
  residues : ∀ a' b', a' % 2 ^ 32 = a % 2 ^ 32 →
    (if f.isShift then b' = b else b' % 2 ^ 32 = b % 2 ^ 32) →
    f.apply mode a' b' = f.apply mode a b

namespace Operation

variable {mode : Mode} {a b v : Int}

/-- What is wrapped is answered just where it is the word asked for. -/
theorem ok_wrap_eq_ok_iff (n : Int) :
    (.ok (mode.wrap n) : Except Failure Int) = .ok v ↔ mode.IsWordOf v n := by
  rw [Mode.isWordOf_iff, Except.ok.injEq, eq_comm]

/-- A shift answers for the amounts up to the greatest. -/
theorem map_shiftAmount_eq_ok_iff {g : Nat → Int} :
    ((shiftAmount b).map fun k => mode.wrap (g k)) = .ok v ↔
      ∃ k : Nat, b = k ∧ k ≤ 31 ∧ mode.IsWordOf v (g k) := by
  constructor
  · intro h
    cases hamount : shiftAmount b with
    | error => rw [hamount] at h; cases h
    | ok k =>
      obtain ⟨hnonneg, hle⟩ := (shiftAmount_eq_ok_iff b).1 ⟨k, hamount⟩
      obtain rfl : b.toNat = k := Except.ok.inj ((if_pos ⟨hnonneg, hle⟩).symm.trans hamount)
      rw [hamount] at h
      have amount : b = (b.toNat : Int) := (Int.toNat_of_nonneg hnonneg).symm
      exact ⟨b.toNat, amount, Int.toNat_le.2 hle, (ok_wrap_eq_ok_iff _).1 h⟩
  · rintro ⟨k, rfl, hk, word⟩
    have amount : shiftAmount k = .ok k :=
      if_pos ⟨Int.natCast_nonneg k, by simpa [greatestShift] using hk⟩
    rw [amount]
    exact (ok_wrap_eq_ok_iff _).2 word

/-- The others fail in the one way or the other. -/
theorem map_shiftAmount_eq_error_iff {g : Nat → Int} {e : Failure} :
    (shiftAmount b).map g = .error e ↔ ¬(0 ≤ b ∧ b ≤ 31) ∧
      e = if Numeral.Writable b then .fault (.shiftOutOfRange b) else .numeral .tooLongToWrite := by
  rw [shiftAmount]
  by_cases hb : 0 ≤ b ∧ b ≤ greatestShift
  · have short : 0 ≤ b ∧ b ≤ 31 := hb
    simp [hb, short, Except.map]
  · have long : ¬(0 ≤ b ∧ b ≤ 31) := hb
    by_cases hw : Numeral.Writable b <;> simp [hb, hw, long, Except.map, eq_comm]

/-- Each operation answers what it is to yield. -/
theorem apply_eq_ok_iff (f : Operation) (mode : Mode) (a b v : Int) :
    f.apply mode a b = .ok v ↔ f.Yields mode a b v := by
  cases f with
  | add =>
    rw [apply, mode.wrap_add_wrap, ok_wrap_eq_ok_iff]
    refine ⟨.add, fun h => ?_⟩
    cases h with
    | add word => exact word
  | sub =>
    rw [apply, mode.wrap_sub_wrap, ok_wrap_eq_ok_iff]
    refine ⟨.sub, fun h => ?_⟩
    cases h with
    | sub word => exact word
  | and =>
    rw [apply, ok_wrap_eq_ok_iff]
    have bitwise := Nat.testBit_and (bits a) (bits b)
    refine ⟨.and bitwise, fun h => ?_⟩
    cases h with
    | and both word => rwa [Nat.eq_of_testBit_eq fun i => (bitwise i).trans (both i).symm]
  | or =>
    rw [apply, ok_wrap_eq_ok_iff]
    have bitwise := Nat.testBit_or (bits a) (bits b)
    refine ⟨.or bitwise, fun h => ?_⟩
    cases h with
    | or either word => rwa [Nat.eq_of_testBit_eq fun i => (bitwise i).trans (either i).symm]
  | shiftLeft =>
    have product (k : Nat) : (bits a <<< k : Nat) = a % 2 ^ 32 * 2 ^ k := by
      rw [Nat.shiftLeft_eq]
      push_cast
      rw [natCast_bits]
      rfl
    simp only [apply, map_shiftAmount_eq_ok_iff, product]
    constructor
    · rintro ⟨k, amount, short, word⟩
      exact .shiftLeft amount short word
    · intro h
      cases h with
      | shiftLeft amount short word => exact ⟨_, amount, short, word⟩
  | shiftRight =>
    have quotient (k : Nat) : (bits a >>> k : Nat) = ⌊((a % 2 ^ 32 : Int) / 2 ^ k : ℚ)⌋ := by
      rw [Nat.shiftRight_eq_div_pow, floor_div_two_pow]
      push_cast
      rw [natCast_bits]
      rfl
    simp only [apply, map_shiftAmount_eq_ok_iff, quotient]
    constructor
    · rintro ⟨k, amount, short, word⟩
      exact .shiftRight amount short word
    · intro h
      cases h with
      | shiftRight amount short word => exact ⟨_, amount, short, word⟩
  | lessThan =>
    have left : mode.IsWordOf (mode.wrap a) a := Mode.isWordOf_iff.2 rfl
    have right : mode.IsWordOf (mode.wrap b) b := Mode.isWordOf_iff.2 rfl
    rw [apply, Except.ok.injEq]
    constructor
    · rintro rfl
      split
      case isTrue h => exact .less left right h
      case isFalse h => exact .notLess left right h
    · intro h
      cases h with
      | less hx hy less =>
        rw [Mode.isWordOf_iff.1 hx, Mode.isWordOf_iff.1 hy] at less
        exact if_pos less
      | notLess hx hy notLess =>
        rw [Mode.isWordOf_iff.1 hx, Mode.isWordOf_iff.1 hy] at notLess
        exact if_neg notLess

/-- Only shifts fail, and by their amount. -/
theorem apply_eq_error_iff (f : Operation) (mode : Mode) (a b : Int) (e : Failure) :
    f.apply mode a b = .error e ↔ f.isShift = true ∧ ¬(0 ≤ b ∧ b ≤ 31) ∧
      e = if Numeral.Writable b then .fault (.shiftOutOfRange b) else .numeral .tooLongToWrite := by
  cases hf : f.isShift with
  | true =>
    obtain ⟨g, hg⟩ := apply_shift hf mode a b
    rw [hg, map_shiftAmount_eq_error_iff]
    exact (and_iff_right rfl).symm
  | false =>
    obtain ⟨v, hv⟩ := exists_apply_eq_ok hf mode a b
    rw [hv]
    simp

/-- Every operation depends on the residue of its first operand alone. -/
theorem apply_congr_left (f : Operation) (mode : Mode) {a a' : Int} (b : Int)
    (h : a' % wordSize = a % wordSize) : f.apply mode a' b = f.apply mode a b := by
  have word : mode.wrap a' = mode.wrap a := (mode.wrap_eq_wrap_iff a' a).2 h
  cases f <;> simp only [apply, word, bits_congr h]

/-- The requirements are met by every operation. -/
theorem isExact (f : Operation) (mode : Mode) (a b : Int) : f.IsExact mode a b where
  answer := f.apply_eq_ok_iff mode a b
  failure := f.apply_eq_error_iff mode a b
  residues := by
    intro a' b' ha hb
    rw [f.apply_congr_left mode b' ha]
    split at hb
    case isTrue => rw [hb]
    case isFalse hf => exact apply_congr (Bool.eq_false_iff.2 hf) mode a hb

/-- **Operations are exact on words.** Each of them answers the one word that is congruent to its
result on the integers, or on their residues, and the comparison answers which word is less. Shifts
by amounts outside of `0..31` fail, and nothing else does. Operands can be replaced by congruent
ones. And a word that is shifted to the left by `n`, and then to the right, is left with its low
`32 - n` bits, read in the mode. -/
theorem apply_exact (mode : Mode) :
    (∀ (f : Operation) (a b : Int), f.IsExact mode a b) ∧
      ∀ (a : Int) (n : Nat), n ≤ 31 → ∃ shifted back : Int,
        Operation.shiftLeft.apply mode a n = .ok shifted ∧
        Operation.shiftRight.apply mode shifted n = .ok back ∧
        mode.IsWordOf back (a % 2 ^ (32 - n)) := by
  refine ⟨fun f a b => f.isExact mode a b, fun a n hn => ?_⟩
  have left : Operation.shiftLeft.apply mode a n = .ok (mode.wrap (bits a <<< n : Nat)) :=
    map_shiftAmount_eq_ok_iff.2 ⟨n, rfl, hn, Mode.isWordOf_iff.2 rfl⟩
  refine ⟨_, _, left, map_shiftAmount_eq_ok_iff.2 ⟨n, rfl, hn, Mode.isWordOf_iff.2 rfl⟩, ?_⟩
  rw [bits_shiftLeft_shiftRight mode a (by omega), Mode.isWordOf_iff]

/-- An integer that is no word, shifted by zero and back: all of its low bits are left, and they are
read with their sign. Shifted further, they have none. -/
theorem apply_exact_shift_back :
    Operation.shiftLeft.apply .signed 0x1ffffffff 0 = .ok (-1) ∧
      Operation.shiftRight.apply .signed (-1) 0 = .ok (-1) ∧
      Operation.shiftLeft.apply .signed 0x1ffffffff 4 = .ok (-0x10) ∧
      Operation.shiftRight.apply .signed (-0x10) 4 = .ok 0x0fffffff ∧
      Mode.signed.IsWordOf (-1) (0x1ffffffff % 2 ^ 32) ∧
      Mode.signed.IsWordOf 0x0fffffff (0x1ffffffff % 2 ^ 28) := by
  obtain ⟨shifted, back, hleft, hright, hword⟩ :=
    (apply_exact .signed).2 0x1ffffffff 0 (by decide)
  obtain rfl : -1 = shifted := Except.ok.inj hleft
  obtain rfl : -1 = back := Except.ok.inj hright
  obtain ⟨shifted, back, hleft', hright', hword'⟩ :=
    (apply_exact .signed).2 0x1ffffffff 4 (by decide)
  obtain rfl : -0x10 = shifted := Except.ok.inj hleft'
  obtain rfl : 0x0fffffff = back := Except.ok.inj hright'
  exact ⟨hleft, hright, hleft', hright', hword, hword'⟩

end Operation

end TinyMips
