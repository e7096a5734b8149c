import TinyMips.Proofs.BatchOrder
import TinyMips.Proofs.Limits
import TinyMips.Proofs.Noninterference

/-!
# Looking registers up

What direct accesses to the general registers come to, for every name whatever its characters. Names
fall into three kinds: those that stand for a register, those that stand for none, and those that
are a dollar sign and digits which are not read as a number (`IsUnreadable`). Names of the first two
kinds are answered (`RegisterFile.Answers`). Digits that are not read are those outside of decimal
numerals, such as superscripts, and decimal digits if they are too many; all accesses then fail with
what reading them fails with (`RegisterFile.Fails`). The main statement is that there is no other
case (`RegisterFile.answers_or_fails`).
-/

namespace TinyMips.RegisterFile

/-- Whether accesses to a general register by name are answered as they should be: the name stands
for a register or for none, and only registers can be read, and only those other than the first
written. -/
structure Answers (file : RegisterFile Bank.general) (name : String) (isRegister : Bool) :
    Prop where
  /-- whether the name stands for a register is told -/
  contains : file.contains name = .ok isRegister
  /-- the value of a register is told, and no other -/
  get_iff : (∃ v, file.get name = .ok v) ↔ isRegister = true
  /-- what is no register is unknown to a reader -/
  get_unknown : isRegister = false → file.get name = .error (.fault (.unknownRegister name))
  /-- a register is written, unless it is the first, and nothing else -/
  set_iff : (∃ written, file.set name 0 = .ok written) ↔
    isRegister = true ∧ Bank.general.canonical name ≠ .ok "$zero"
  /-- what is no register is unknown to a writer -/
  set_unknown : isRegister = false → file.set name 0 = .error (.fault (.unknownRegister name))
  /-- the first register is protected -/
  set_protected : isRegister = true → Bank.general.canonical name = .ok "$zero" →
    file.set name 0 = .error (.fault (.protectedRegister "$zero"))

/-- Whether accesses to a general register by name all fail with the same error of a numeral. -/
structure Fails (file : RegisterFile Bank.general) (name : String) (e : Numeral.Error) : Prop where
  /-- whether the name stands for a register is not told -/
  contains : file.contains name = .error e
  /-- nothing is read -/
  get : file.get name = .error (.numeral e)
  /-- nothing is written -/
  set : file.set name 0 = .error (.numeral e)

variable {name : String}

theorem fails_of_find (file : RegisterFile Bank.general) {e : Numeral.Error}
    (h : Bank.general.find name = .error e) : file.Fails name e := by
  have source : Bank.general.source name = .error (.numeral e) := by
    rw [Bank.source, h]
  constructor
  · rw [RegisterFile.contains, h, error_bind]
  · rw [RegisterFile.get, source, error_bind]
  · rw [RegisterFile.set, Bank.target, source, error_bind, error_bind]

theorem answers_of_find_none (file : RegisterFile Bank.general)
    (h : Bank.general.find name = .ok none) : file.Answers name false := by
  have source : Bank.general.source name = .error (.fault (.unknownRegister name)) := by
    rw [Bank.source, h]
  have get : file.get name = .error (.fault (.unknownRegister name)) := by
    rw [RegisterFile.get, source, error_bind]
  have set : file.set name 0 = .error (.fault (.unknownRegister name)) := by
    rw [RegisterFile.set, Bank.target, source, error_bind, error_bind]
  exact {
    contains := by rw [RegisterFile.contains, h]; rfl
    get_iff := by simp [get]
    get_unknown := fun _ => get
    set_iff := by simp [set]
    set_unknown := fun _ => set
    set_protected := fun h => absurd h Bool.false_ne_true }

theorem answers_of_find_some (file : RegisterFile Bank.general) {i : Fin generalSize}
    (h : Bank.general.find name = .ok (some i)) : file.Answers name true := by
  have zero_iff : Bank.general.canonical name = .ok "$zero" ↔ i = 0 := by
    rw [show "$zero" = Bank.general.name 0 from rfl, canonical_eq_name_iff, h]
    simp
  have get : file.get name = .ok (file.value i) := get_of_find h file
  have refused (hi : i = 0) : file.set name 0 = .error (.fault (.protectedRegister "$zero")) := by
    subst hi
    rw [RegisterFile.set, Bank.refuses_iff.1 (.isProtected h rfl), error_bind]
    rfl
  have written (hi : i ≠ 0) : file.set name 0 = .ok (file.put i 0) :=
    set_of_target (Bank.target_eq_ok_iff.2 ⟨h, decide_eq_false hi⟩) (by decide) file
  exact {
    contains := by rw [RegisterFile.contains, h]; rfl
    get_iff := iff_of_true ⟨_, get⟩ rfl
    get_unknown := fun h => absurd h.symm Bool.false_ne_true
    set_iff := by
      rw [and_iff_right rfl, ne_eq, zero_iff]
      constructor
      · rintro ⟨_, hset⟩ hi
        cases (refused hi).symm.trans hset
      · exact fun hi => ⟨_, written hi⟩
    set_unknown := fun h => absurd h.symm Bool.false_ne_true
    set_protected := fun _ hzero => refused (zero_iff.1 hzero) }

/-- **Every name is answered unless it is unreadable.** Accesses to a general register by name are
answered, whatever the registers hold, if the name is not a dollar sign and digits that are not
read; otherwise all of them fail with the same error. -/
theorem answers_or_fails (file : RegisterFile Bank.general) (name : String) :
    ((∃ isRegister, file.Answers name isRegister) ↔ ¬IsUnreadable name) ∧
      ((∃ e, file.Fails name e) ↔ IsUnreadable name) := by
  rw [← find_eq_error_iff_isUnreadable]
  cases h : Bank.general.find name with
  | error e =>
    have fails := file.fails_of_find h
    refine ⟨iff_of_false ?_ (not_not.2 ⟨e, rfl⟩), iff_of_true ⟨e, fails⟩ ⟨e, rfl⟩⟩
    rintro ⟨isRegister, answers⟩
    cases fails.contains.symm.trans answers.contains
  | ok i? =>
    have answered : ∃ isRegister, file.Answers name isRegister := by
      cases i? with
      | none => exact ⟨_, file.answers_of_find_none h⟩
      | some i => exact ⟨_, file.answers_of_find_some h⟩
    obtain ⟨isRegister, answers⟩ := answered
    refine ⟨iff_of_true ⟨_, answers⟩ nofun, iff_of_false ?_ nofun⟩
    rintro ⟨e, fails⟩
    cases fails.contains.symm.trans answers.contains

/-- Decimal digits are read in every script. -/
example : (zero Bank.general).Answers "$٣١" true :=
  answers_of_find_some _ (show Bank.general.find "$٣١" = .ok (some 31) from rfl)

/-- A superscript counts as a digit, but is not read as one. -/
theorem not_answers_superscript :
    (zero Bank.general).get "$²" = .error (.numeral (.notDecimal "²")) ∧
      ¬∃ isRegister, (zero Bank.general).Answers "$²" isRegister := by
  have found : Bank.general.find "$²" = .error (.notDecimal "²") := rfl
  have fails := (zero Bank.general).fails_of_find found
  refine ⟨fails.get, ?_⟩
  rintro ⟨isRegister, answers⟩
  cases fails.contains.symm.trans answers.contains

end TinyMips.RegisterFile
