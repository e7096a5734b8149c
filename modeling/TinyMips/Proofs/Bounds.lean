import TinyMips.Execution

/-!
# Bounds

The integers that a register can come to hold: signed words and unsigned words, from `-2 ^ 31` up
to `2 ^ 32 - 1`. Nothing on the way to a register checks this range, so it has to come out of the
arithmetic: each operation answers in the range of its mode (`Operation.inRange_of_apply`,
`inRange_of_divide`), hence an instruction on a machine that holds words asks only for words
(`Instruction.asks_of_evaluate`). A word is short enough to be written out (`IsWord.writable`),
which is what keeps the log and the tables from failing.
-/

namespace TinyMips

/-- An integer that is a word of either mode. -/
def IsWord (n : Int) : Prop :=
  leastWord ≤ n ∧ n ≤ greatestWord

instance (n : Int) : Decidable (IsWord n) :=
  inferInstanceAs (Decidable (_ ∧ _))

theorem Mode.InRange.isWord {mode : Mode} {n : Int} (h : mode.InRange n) : IsWord n := by
  cases mode <;> simp only [InRange, IsWord, leastWord, greatestWord] at * <;> omega

/-- Words are far below the limit on numerals. -/
theorem IsWord.writable {n : Int} (h : IsWord n) : Numeral.Writable n := by
  have size : Numeral.Writable wordSize := by decide
  have small : n.natAbs ≤ (wordSize : Int).natAbs := by
    simp only [IsWord, leastWord, greatestWord, wordSize] at h ⊢
    omega
  exact size.of_natAbs_le small

/-! ## Results -/

theorem Mode.inRange_bit (mode : Mode) (p : Prop) [Decidable p] :
    mode.InRange (if p then 1 else 0) := by
  cases mode <;> split <;> decide

/-- Whatever an operation answers is in the range of its mode. -/
theorem Operation.inRange_of_apply {op : Operation} {mode : Mode} {a b v : Int}
    (h : op.apply mode a b = .ok v) : mode.InRange v := by
  have shifted {f : Nat → Int} (hf : ∀ n, mode.InRange (f n))
      (hs : (shiftAmount b).map f = .ok v) : mode.InRange v := by
    cases hb : shiftAmount b with
    | error e => simp [hb, Except.map] at hs
    | ok n =>
      simp only [hb, Except.map, Except.ok.injEq] at hs
      exact hs ▸ hf n
  cases op with
  | shiftLeft => exact shifted (fun _ => mode.inRange_wrap _) h
  | shiftRight => exact shifted (fun _ => mode.inRange_wrap _) h
  | lessThan => exact Except.ok.inj h ▸ mode.inRange_bit _
  | _ => exact Except.ok.inj h ▸ mode.inRange_wrap _

/-- Both results of a division are in the range of its mode. -/
theorem inRange_of_divide {mode : Mode} {a b : Int} {d : Division}
    (h : divide mode a b = .ok d) : mode.InRange d.remainder ∧ mode.InRange d.quotient := by
  by_cases hb : mode.wrap b = 0
  · rw [divide_eq, if_pos hb] at h
    cases h
  · rw [divide_eq, if_neg hb] at h
    cases h
    exact ⟨mode.inRange_wrap _, mode.inRange_wrap _⟩

/-! ## Machines -/

/-- All registers of the file hold words. -/
def RegisterFile.HoldsWords {size : Nat} {bank : Bank size} (file : RegisterFile bank) : Prop :=
  ∀ i, IsWord (file.value i)

namespace RegisterFile

variable {size : Nat} {bank : Bank size} {file : RegisterFile bank}

theorem holdsWords_zero : (zero bank).HoldsWords := by
  intro i
  rw [value_zero]
  exact ⟨by decide, by decide⟩

theorem HoldsWords.put (h : file.HoldsWords) (i : Fin size) {v : Int} (hv : IsWord v) :
    (file.put i v).HoldsWords := by
  intro j
  by_cases hij : i = j
  · subst hij
    rw [value_put_self]
    exact hv
  · rw [value_put_of_ne _ hij]
    exact h j

end RegisterFile

namespace Machine

/-- All registers of the machine hold words. -/
structure HoldsWords (m : Machine) : Prop where
  /-- the general registers do -/
  general : m.general.HoldsWords
  /-- the accumulators do -/
  accumulators : m.accumulators.HoldsWords

theorem holdsWords_zero : zero.HoldsWords :=
  ⟨RegisterFile.holdsWords_zero, RegisterFile.holdsWords_zero⟩

end Machine

end TinyMips
