import Mathlib.Data.List.Forall2
import TinyMips.Proofs.BatchOrder
import TinyMips.Proofs.Noninterference
import TinyMips.Proofs.OperandTexts

/-!
# Spellings of registers

A general register can be named in many ways: by its name, and by a dollar sign with its number, in
the decimal digits of any script and with as many zeros in front as there is room for. Which names
mean which register is said here by their characters (`IsSpelling`), and looking a name up finds
just that (`find_eq_some_iff`). The main statement is that the spellings of a register, and no other
names, have its name for their proper name, and that other names are left alone or refused
(`Bank.resolves_general`). Names that are resolved alike are as good as one another wherever a
register is looked up (`source_eq_of_canonical_eq`).
-/

namespace TinyMips

/-! ## Numbers of registers -/

/-- Whether a name is a dollar sign and a number in decimal digits, of which there are up to 4300.
The last digit counts ones, and each other ten times as much as the digit after it. -/
def IsNumbered (name : String) (n : Nat) : Prop :=
  ∃ digits values, name.toList = '$' :: digits ∧ 1 ≤ digits.length ∧ digits.length ≤ 4300 ∧
    List.Forall₂ (fun c v => Text.decimalValue? c = some v) digits values ∧
    n = Nat.ofDigits 10 values.reverse

/-- Whether a name is one of those that a general register has: its own name, or its number. -/
def IsSpelling (name : String) (i : Fin generalSize) : Prop :=
  name = Bank.general.name i ∨ IsNumbered name i

namespace Numeral

/-- The values of digits are found one by one, if all characters are digits. -/
theorem forall₂_decimalValue?_iff {text : List Char} {values : List Nat} :
    List.Forall₂ (fun c v => Text.decimalValue? c = some v) text values ↔
      leadingDigits text = values ∧ values.length = text.length := by
  induction text generalizing values with
  | nil => simp [List.forall₂_nil_left_iff, leadingDigits, eq_comm]
  | cons c rest ih =>
    rw [leadingDigits]
    cases hc : Text.decimalValue? c with
    | none =>
      refine iff_of_false (fun h => ?_) ?_
      · obtain _ | ⟨h, -⟩ := h
        cases hc.symm.trans h
      · rintro ⟨rfl, h⟩
        cases h
    | some v =>
      constructor
      · rintro (_ | ⟨h, hrest⟩)
        obtain rfl := Option.some.inj (hc.symm.trans h)
        obtain ⟨rfl, hlength⟩ := ih.1 hrest
        exact ⟨rfl, congrArg (· + 1) hlength⟩
      · rintro ⟨rfl, hlength⟩
        exact .cons hc (ih.2 ⟨rfl, Nat.succ.inj hlength⟩)

/-- A text is read as the number that its digits spell. -/
theorem readText_eq_ok_iff {text : List Char} {n : Nat} :
    readText text = .ok n ↔ text.length ≤ 4300 ∧ ∃ values,
      List.Forall₂ (fun c v => Text.decimalValue? c = some v) text values ∧
      n = Nat.ofDigits 10 values.reverse := by
  simp only [forall₂_decimalValue?_iff, and_assoc, exists_eq_left', ← ofDigits_eq]
  rw [readText, bind_eq_ok]
  constructor
  · rintro ⟨value, hvalue, h⟩
    rw [readDecimal] at hvalue
    split at hvalue
    case isTrue hlimit =>
      obtain rfl := Except.ok.inj hvalue
      split at h
      case isTrue hlength => exact ⟨hlength ▸ hlimit, hlength, (Except.ok.inj h).symm⟩
      case isFalse => cases h
    case isFalse => cases hvalue
  · rintro ⟨hlimit, hlength, rfl⟩
    have short : (leadingDigits text).length ≤ digitLimit := hlength ▸ hlimit
    exact ⟨_, if_pos short, if_pos hlength⟩

end Numeral

/-! ## Looking names up -/

theorem generalNumber?_eq_some_iff {name : String} {i : Fin generalSize} :
    generalNumber? name = .ok (some i) ↔ IsNumbered name i := by
  rw [generalNumber?]
  constructor
  · intro h
    split at h
    case _ => cases h
    case _ digits hdigits =>
      obtain ⟨hname, hne, -⟩ := spelledDigits?_eq_some_iff.1 hdigits
      obtain ⟨n, hn, h⟩ := bind_eq_ok.1 h
      obtain ⟨hlimit, values, hvalues, rfl⟩ := Numeral.readText_eq_ok_iff.1 hn
      split at h
      case isTrue hlt =>
        obtain rfl := Option.some.inj (Except.ok.inj h)
        exact ⟨digits, values, hname, List.length_pos_iff.2 hne, hlimit, hvalues, rfl⟩
      case isFalse => cases h
  · rintro ⟨digits, values, hname, hne, hlimit, hvalues, hi⟩
    have all : ∀ c ∈ digits, Text.isDigit c = true := fun c hc => by
      obtain ⟨rfl, hlength⟩ := Numeral.forall₂_decimalValue?_iff.1 hvalues
      rw [Text.isDigit, Numeral.length_leadingDigits_eq_iff.1 hlength c hc, Bool.true_or]
    have spelled : spelledDigits? name.toList = some digits :=
      spelledDigits?_eq_some_iff.2 ⟨hname, List.length_pos_iff.1 hne, all⟩
    have read : Numeral.readText digits = .ok i.val :=
      Numeral.readText_eq_ok_iff.2 ⟨hlimit, values, hvalues, hi⟩
    simp only [spelled, read, ok_bind, i.isLt, ↓reduceDIte]
    rfl

theorem named?_eq_some_iff {name : String} {i : Fin generalSize} :
    Bank.general.named? name = some i ↔ name = Bank.general.name i := by
  constructor
  · intro h
    have found := List.find?_some h
    exact (eq_of_beq found).symm
  · rintro rfl
    exact Bank.general.named?_name i

/-- The names that mean a register are its spellings. -/
theorem find_eq_some_iff {name : String} {i : Fin generalSize} :
    Bank.general.find name = .ok (some i) ↔ IsSpelling name i := by
  constructor
  · intro h
    obtain ⟨number, hnumber, h⟩ := bind_eq_ok.1 h
    cases number with
    | some j =>
      obtain rfl : j = i := Option.some.inj (Except.ok.inj h)
      exact .inr (generalNumber?_eq_some_iff.1 hnumber)
    | none => exact .inl (named?_eq_some_iff.1 (Except.ok.inj h))
  · rintro (rfl | h)
    · exact Bank.general.find_name i
    · have number : Bank.general.number? name = .ok (some i) := generalNumber?_eq_some_iff.2 h
      rw [Bank.find, number]
      rfl

/-! ## Proper names -/

/-- What is asked of the proper name of what a name means. -/
structure Bank.ResolvesGeneral (name : String) : Prop where
  /-- the spellings of a register have its name for their proper name, and no other names do -/
  spelling : ∀ i, Bank.general.canonical name = .ok (Bank.general.name i) ↔ IsSpelling name i
  /-- all other names are left alone, unless they are refused -/
  other : (∀ i, ¬IsSpelling name i) → ¬IsUnreadable name → Bank.general.canonical name = .ok name
  /-- refused are those that are a dollar sign and digits, but none that are read -/
  refused : (∃ e, Bank.general.canonical name = .error e) ↔ IsUnreadable name
  /-- a proper name is its own proper name -/
  idempotent : ∀ proper, Bank.general.canonical name = .ok proper →
    Bank.general.canonical proper = .ok proper

variable {a b name : String}

theorem canonical_of_find_error {e : Numeral.Error} (h : Bank.general.find name = .error e) :
    Bank.general.canonical name = .error e := by
  rw [Bank.canonical, h, error_bind]

theorem canonical_of_find_none (h : Bank.general.find name = .ok none) :
    Bank.general.canonical name = .ok name := by
  rw [Bank.canonical, h]
  rfl

/-- **Spellings are resolved.** The proper name of a name is that of a register if the name is a
spelling of the register, and the name itself if it is a spelling of none, but for names that are
refused. Proper names stay as they are. -/
theorem Bank.resolves_general (name : String) : ResolvesGeneral name where
  spelling i := canonical_eq_name_iff.trans find_eq_some_iff
  other hspelling hreadable := by
    cases h : Bank.general.find name with
    | error e => exact absurd (find_eq_error_iff_isUnreadable.1 ⟨e, h⟩) hreadable
    | ok i? =>
      cases i? with
      | none => exact canonical_of_find_none h
      | some i => exact absurd (find_eq_some_iff.1 h) (hspelling i)
  refused := by
    rw [← find_eq_error_iff_isUnreadable]
    cases h : Bank.general.find name with
    | error e => exact iff_of_true ⟨e, canonical_of_find_error h⟩ ⟨e, rfl⟩
    | ok i? =>
      obtain ⟨proper, hproper⟩ := exists_canonical_iff.2 ⟨i?, h⟩
      simp [hproper]
  idempotent := by
    intro proper hproper
    cases h : Bank.general.find name with
    | error e =>
      rw [canonical_of_find_error h] at hproper
      cases hproper
    | ok i? =>
      cases i? with
      | none =>
        obtain rfl := Except.ok.inj ((canonical_of_find_none h).symm.trans hproper)
        exact hproper
      | some i =>
        obtain rfl := Except.ok.inj ((canonical_of_find h).symm.trans hproper)
        exact canonical_of_find (Bank.general.find_name i)

/-- A register is looked up by its proper name. -/
theorem source_of_canonical {proper : String} (h : Bank.general.canonical name = .ok proper) :
    Bank.general.source name = Bank.general.source proper := by
  obtain ⟨i?, hfind⟩ := Bank.exists_canonical_iff.1 ⟨proper, h⟩
  cases i? with
  | none => rw [Except.ok.inj ((canonical_of_find_none hfind).symm.trans h)]
  | some i =>
    obtain rfl := Except.ok.inj ((Bank.canonical_of_find hfind).symm.trans h)
    rw [Bank.source_of_find hfind, Bank.source_of_find (Bank.general.find_name i)]

/-- Names that are resolved alike are as good as one another, also if they mean no register. -/
theorem source_eq_of_canonical_eq (h : Bank.general.canonical a = Bank.general.canonical b) :
    Bank.general.source a = Bank.general.source b := by
  cases hb : Bank.general.canonical b with
  | ok proper => rw [source_of_canonical (h.trans hb), source_of_canonical hb]
  | error e =>
    have refused {name : String} (h : Bank.general.canonical name = .error e) :
        Bank.general.source name = .error (.numeral e) := by
      rcases bind_eq_error.1 h with hfind | ⟨i?, -, h⟩
      · rw [Bank.source, hfind]
      · cases i? <;> cases h
    rw [refused (h.trans hb), refused hb]

theorem target_eq_of_canonical_eq (h : Bank.general.canonical a = Bank.general.canonical b) :
    Bank.general.target a = Bank.general.target b := by
  rw [Bank.target, Bank.target, source_eq_of_canonical_eq h]

/-- Spellings of the first register are refused by a writer. -/
theorem IsSpelling.target_zero (h : IsSpelling name 0) :
    Bank.general.target name = .error (.fault (.protectedRegister "$zero")) := by
  have same : Bank.general.canonical name = Bank.general.canonical "$zero" :=
    ((Bank.resolves_general name).spelling 0).2 h
  rw [target_eq_of_canonical_eq same]
  rfl

end TinyMips
