import TinyMips.Fault

/-!
# Register banks

A bank is a fixed row of registers with their names, together with the other spellings it knows
and the registers it protects. There are two: the 32 general registers, whose first is always
zero, and the accumulators `hi` and `lo`.

The main statement is that the name of a register finds that register (`Bank.find_name`), which can
be written under its name unless it is protected (`Bank.target_name`).
-/

namespace TinyMips

/-- A row of `size` registers. -/
structure Bank (size : Nat) where
  /-- the name of each register -/
  names : Vector String size
  /-- the register that a numeric spelling stands for, if the name is one -/
  number? : String → Except Numeral.Error (Option (Fin size))
  /-- the registers that cannot be written -/
  isProtected : Fin size → Bool
  /-- no two registers have the same name -/
  name_injective : ∀ i j : Fin size, names[i] = names[j] → i = j
  /-- no register has a numeric spelling for its name -/
  number?_name : ∀ i : Fin size, number? names[i] = .ok none

namespace Bank

variable {size : Nat} (bank : Bank size)

/-- The name of a register. -/
def name (i : Fin size) : String :=
  bank.names[i]

/-- The register with exactly this name. -/
def named? (name : String) : Option (Fin size) :=
  (List.finRange size).find? (bank.name · == name)

/-- The register that a name or a numeric spelling stands for. -/
def find (name : String) : Except Numeral.Error (Option (Fin size)) := do
  match ← bank.number? name with
  | some i => return some i
  | none => return bank.named? name

/-- The name of the register that is meant; a name that means none stays as it is. -/
def canonical (name : String) : Except Numeral.Error String := do
  match ← bank.find name with
  | some i => return bank.name i
  | none => return name

/-- The register that is meant, for reading. -/
def source (name : String) : Except Failure (Fin size) :=
  match bank.find name with
  | .error e => .error (.numeral e)
  | .ok none => .error (.fault (.unknownRegister name))
  | .ok (some i) => .ok i

/-- The register that is meant, for writing. -/
def target (name : String) : Except Failure (Fin size) := do
  let i ← bank.source name
  if bank.isProtected i then .error (.fault (.protectedRegister (bank.name i))) else .ok i

theorem named?_name (i : Fin size) : bank.named? (bank.name i) = some i := by
  cases h : bank.named? (bank.name i) with
  | none =>
    have other := List.find?_eq_none.1 h i (List.mem_finRange i)
    exact absurd (beq_self_eq_true _) other
  | some j =>
    have found := List.find?_some h
    exact congrArg some (bank.name_injective j i (eq_of_beq found))

/-- The name of a register is a spelling of it. -/
theorem find_name (i : Fin size) : bank.find (bank.name i) = .ok (some i) := by
  rw [find, show bank.number? (bank.name i) = .ok none from bank.number?_name i]
  exact congrArg Except.ok (bank.named?_name i)

/-- A register that is not protected can be written under its name. -/
theorem target_name {i : Fin size} (h : bank.isProtected i = false) :
    bank.target (bank.name i) = .ok i := by
  have source : bank.source (bank.name i) = .ok i := by rw [source, bank.find_name]
  rw [target, source]
  exact if_neg (by simp [h])

end Bank

/-! ## The general registers -/

/-- The number of general registers. -/
abbrev generalSize : Nat := 32

/-- The digits of a numeric spelling: all that follows a dollar sign, if that is digits. -/
def spelledDigits? : List Char → Option (List Char)
  | '$' :: digits => if digits ≠ [] ∧ digits.all Text.isDigit then some digits else none
  | _ => none

/-- The general register that a dollar sign and a decimal numeral stand for. -/
def generalNumber? (name : String) : Except Numeral.Error (Option (Fin generalSize)) :=
  match spelledDigits? name.toList with
  | none => .ok none
  | some digits => do
    let n ← Numeral.readText digits
    return if h : n < generalSize then some ⟨n, h⟩ else none

/-- The names of the general registers. -/
def generalNames : Vector String generalSize := #v[
  "$zero", "$at", "$v0", "$v1", "$a0", "$a1", "$a2", "$a3",
  "$t0", "$t1", "$t2", "$t3", "$t4", "$t5", "$t6", "$t7",
  "$s0", "$s1", "$s2", "$s3", "$s4", "$s5", "$s6", "$s7",
  "$t8", "$t9", "$k0", "$k1", "$gp", "$sp", "$fp", "$ra"]

/-- None of the names is a dollar sign with digits. -/
theorem generalNumber?_names (i : Fin generalSize) :
    generalNumber? generalNames[i] = .ok none := by
  have unspelled : ∀ i : Fin generalSize, spelledDigits? generalNames[i].toList = none := by decide
  rw [generalNumber?, unspelled i]

/-- The 32 general registers. The first of them cannot be written. -/
def Bank.general : Bank generalSize where
  names := generalNames
  number? := generalNumber?
  isProtected i := i = 0
  name_injective := by decide
  number?_name := generalNumber?_names

/-! ## The accumulators -/

/-- The registers that division writes. -/
inductive Accumulator where
  /-- the remainder of a division -/
  | hi
  /-- the quotient of a division -/
  | lo
  deriving DecidableEq, Repr

/-- The place of an accumulator in its bank. -/
def Accumulator.index : Accumulator → Fin 2
  | .hi => 0
  | .lo => 1

/-- The two accumulators, which have no other spellings. -/
def Bank.accumulators : Bank 2 where
  names := #v["hi", "lo"]
  number? _ := .ok none
  isProtected _ := false
  name_injective := by decide
  number?_name _ := rfl

/-- The name of an accumulator. -/
def Accumulator.name (a : Accumulator) : String :=
  Bank.accumulators.name a.index

end TinyMips
