import TinyMips.Proofs.Tokens

/-!
# Numerals beyond the limits

Which instructions come upon a numeral that is too long, read off their text alone. There are
three places for one: a decimal immediate, which is read before anything else, the number of a
register, when the register is looked up, and the amount of a shift, when it is refused and named in
the fault. Whether an instruction gets to such a place depends on its operands and on nothing that
the machine holds (`Instruction.halts_verdicts_checks`).
-/

namespace TinyMips

/-! ## ASCII -/

namespace Text

theorem toNat_lt_of_isAsciiAlphanumeric {c : Char} (h : isAsciiAlphanumeric c = true) :
    c.toNat < 128 := by
  simp only [isAsciiAlphanumeric, isAsciiLetter, isAsciiDigit, Bool.or_eq_true, Bool.and_eq_true,
    decide_eq_true_eq, Char.le_def, UInt32.le_iff_toNat_le] at h
  change c.val.toNat < 128
  rcases h with (⟨-, h⟩ | ⟨-, h⟩) | ⟨-, h⟩
  · exact Nat.lt_of_le_of_lt h (by decide)
  · exact Nat.lt_of_le_of_lt h (by decide)
  · exact Nat.lt_of_le_of_lt h (by decide)

/-- The digits of ASCII are its decimal digits, and it has no isolated ones. -/
theorem digit_of_ascii {c : Char} (h : c.toNat < 128) :
    isDigit c = isAsciiDigit c ∧ (decimalValue? c).isSome = isAsciiDigit c := by
  have all : ∀ n : Fin 128, isDigit (Char.ofNat n) = isAsciiDigit (Char.ofNat n) ∧
      (decimalValue? (Char.ofNat n)).isSome = isAsciiDigit (Char.ofNat n) := by decide
  have hc := all ⟨c.toNat, h⟩
  rwa [Char.ofNat_toNat] at hc

end Text

theorem Numeral.length_leadingDigits_le (text : List Char) :
    (leadingDigits text).length ≤ text.length := by
  induction text with
  | nil => exact Nat.le_refl 0
  | cons c rest ih =>
    rw [leadingDigits]
    split
    case _ v _ => exact Nat.succ_le_succ ih
    case _ => exact Nat.zero_le _

theorem Numeral.length_leadingDigits_eq_iff {text : List Char} :
    (leadingDigits text).length = text.length ↔
      ∀ c ∈ text, (Text.decimalValue? c).isSome = true := by
  induction text with
  | nil => exact iff_of_true rfl fun _ h => nomatch h
  | cons c rest ih =>
    rw [leadingDigits, List.forall_mem_cons]
    cases Text.decimalValue? c with
    | none => simp
    | some v => simpa using ih

theorem exists_map_eq_error_iff {ε α β : Type} {x : Except ε α} {f : α → β} :
    (∃ e, (do return f (← x)) = .error e) ↔ ∃ e, x = .error e := by
  cases x with
  | error e => exact iff_of_true ⟨e, rfl⟩ ⟨e, rfl⟩
  | ok a => simp [Functor.map, Except.map]

/-- A text is not read if some of it is no decimal digit or if it is too long, and for no other
reason. -/
theorem Numeral.readText_eq_error_iff {text : List Char} :
    (∃ e, readText text = .error e) ↔
      (∃ c ∈ text, Text.decimalValue? c = none) ∨ digitLimit < text.length := by
  have decimal : (∃ c ∈ text, Text.decimalValue? c = none) ↔
      ¬(leadingDigits text).length = text.length := by
    rw [length_leadingDigits_eq_iff]
    simp [Option.isSome_iff_ne_none]
  have shorter := length_leadingDigits_le text
  simp only [readText, readDecimal, decimal]
  by_cases hlimit : (leadingDigits text).length ≤ digitLimit
  · by_cases hall : (leadingDigits text).length = text.length
    · simp [hall, hall ▸ hlimit]
    · simp [hlimit, hall]
  · have long : digitLimit < text.length := Nat.lt_of_lt_of_le (Nat.lt_of_not_le hlimit) shorter
    simp [hlimit, long]

/-! ## Computations that come upon one -/

/-- Whether a computation fails because of a numeral beyond the limits. -/
def Halts {α : Type} (x : Except Failure α) : Prop :=
  ∃ e, x = .error (.numeral e)

section Halts

variable {α β : Type}

@[simp] theorem not_halts_ok (a : α) : ¬Halts (.ok a : Except Failure α) := by
  rintro ⟨e, h⟩
  cases h

@[simp] theorem halts_error_iff (failure : Failure) :
    Halts (.error failure : Except Failure α) ↔ ∃ e, failure = .numeral e := by
  simp [Halts]

/-- Two computations in a row halt if the first does, or else the second. -/
theorem halts_bind {x : Except Failure α} {f : α → Except Failure β} :
    Halts (x >>= f) ↔ Halts x ∨ ∃ a, x = .ok a ∧ Halts (f a) := by
  cases x with
  | error e => cases e <;> simp
  | ok a => simp

end Halts

/-! ## Register names -/

/-- A name that is a dollar sign and more decimal digits than are read. -/
def IsOverlong (name : String) : Prop :=
  ∃ digits, name.toList = '$' :: digits ∧ (∀ c ∈ digits, Text.isAsciiDigit c = true) ∧
    Numeral.digitLimit < digits.length

/-- A name or a numeric spelling of a general register. -/
def IsRegister (name : String) : Prop :=
  ∃ i, Bank.general.find name = .ok (some i)

theorem isOverlong_iff {name : String} {letters : List Char} (h : name.toList = '$' :: letters) :
    IsOverlong name ↔
      (∀ c ∈ letters, Text.isAsciiDigit c = true) ∧ Numeral.digitLimit < letters.length := by
  constructor
  · rintro ⟨digits, hdigits, hall⟩
    obtain rfl := (List.cons.inj (h.symm.trans hdigits)).2
    exact hall
  · exact fun hall => ⟨letters, h, hall⟩

/-- A name that is a dollar sign and digits, but not such as are read: some of them are no decimal
digits, or they are too many. -/
def IsUnreadable (name : String) : Prop :=
  ∃ digits, name.toList = '$' :: digits ∧ digits ≠ [] ∧ (∀ c ∈ digits, Text.isDigit c = true) ∧
    ((∃ c ∈ digits, Text.decimalValue? c = none) ∨ Numeral.digitLimit < digits.length)

theorem spelledDigits?_eq_some_iff {s digits : List Char} :
    spelledDigits? s = some digits ↔
      s = '$' :: digits ∧ digits ≠ [] ∧ ∀ c ∈ digits, Text.isDigit c = true := by
  constructor
  · intro h
    unfold spelledDigits? at h
    split at h
    case _ letters =>
      split at h
      case isTrue hletters =>
        cases h
        exact ⟨rfl, hletters.1, List.all_eq_true.1 hletters.2⟩
      case isFalse => cases h
    case _ => cases h
  · rintro ⟨rfl, hne, hdigits⟩
    exact if_pos ⟨hne, List.all_eq_true.2 hdigits⟩

/-- A name cannot be looked up if it is unreadable, and for no other reason. -/
theorem find_eq_error_iff_isUnreadable {name : String} :
    (∃ e, Bank.general.find name = .error e) ↔ IsUnreadable name := by
  have number : (∃ e, Bank.general.find name = .error e) ↔ ∃ e, generalNumber? name = .error e := by
    change (∃ e, (generalNumber? name >>= _) = .error e) ↔ _
    cases generalNumber? name with
    | error e => simp
    | ok i? => cases i? <;> simp [pure, Except.pure]
  rw [number, generalNumber?]
  cases h : spelledDigits? name.toList with
  | none =>
    refine iff_of_false (by simp) ?_
    rintro ⟨digits, hname, hne, hdigits, -⟩
    cases h.symm.trans (spelledDigits?_eq_some_iff.2 ⟨hname, hne, hdigits⟩)
  | some digits =>
    obtain ⟨hname, hne, hdigits⟩ := spelledDigits?_eq_some_iff.1 h
    refine exists_map_eq_error_iff.trans (Numeral.readText_eq_error_iff.trans ⟨?_, ?_⟩)
    · exact fun h => ⟨digits, hname, hne, hdigits, h⟩
    · rintro ⟨digits', hname', -, -, h⟩
      exact (List.cons.inj (hname.symm.trans hname')).2 ▸ h

/-- A token has no digits but those of ASCII. -/
theorem isUnreadable_iff_isOverlong {name : String} (h : IsToken name) :
    IsUnreadable name ↔ IsOverlong name := by
  obtain ⟨letters, hname, hne, hascii⟩ := h
  have digit : ∀ c ∈ letters, Text.isDigit c = Text.isAsciiDigit c ∧
      (Text.decimalValue? c).isSome = Text.isAsciiDigit c := fun c hc =>
    Text.digit_of_ascii (Text.toNat_lt_of_isAsciiAlphanumeric (hascii c hc))
  rw [isOverlong_iff hname]
  constructor
  · rintro ⟨digits, hname', -, hdigits, h⟩
    obtain rfl := (List.cons.inj (hname.symm.trans hname')).2
    have decimal : ∀ c ∈ letters, Text.isAsciiDigit c = true := fun c hc =>
      (digit c hc).1.symm.trans (hdigits c hc)
    refine ⟨decimal, h.resolve_left ?_⟩
    rintro ⟨c, hc, hnone⟩
    have value := (digit c hc).2.trans (decimal c hc)
    rw [hnone] at value
    cases value
  · rintro ⟨hdigits, hlong⟩
    exact ⟨letters, hname, hne, fun c hc => (digit c hc).1.trans (hdigits c hc), .inr hlong⟩

theorem find_eq_error_iff {name : String} (h : IsToken name) :
    (∃ e, Bank.general.find name = .error e) ↔ IsOverlong name :=
  find_eq_error_iff_isUnreadable.trans (isUnreadable_iff_isOverlong h)

theorem halts_source_iff {name : String} (h : IsToken name) :
    Halts (Bank.general.source name) ↔ IsOverlong name := by
  rw [← find_eq_error_iff h, Bank.source]
  split
  case _ e he => simp [he]
  case _ he => simp [he]
  case _ i he => simp [he]

theorem source_eq_ok_iff {name : String} :
    (∃ i, Bank.general.source name = .ok i) ↔ IsRegister name := by
  rw [IsRegister, Bank.source]
  split
  case _ e he => simp [he]
  case _ he => simp [he]
  case _ i he => simp [he]

theorem halts_target_iff {name : String} (h : IsToken name) :
    Halts (Bank.general.target name) ↔ IsOverlong name := by
  have protected_or : ∀ i, ¬Halts (if Bank.general.isProtected i then
      .error (.fault (.protectedRegister (Bank.general.name i))) else .ok i) := by
    intro i
    split <;> simp
  rw [Bank.target, halts_bind, halts_source_iff h]
  simp [protected_or]

/-! ## Shift amounts -/

/-- The amount of a shift halts if it cannot be written: amounts that a word can be shifted by
are short. -/
theorem halts_shiftAmount_iff (n : Int) : Halts (shiftAmount n) ↔ ¬Numeral.Writable n := by
  rw [shiftAmount]
  by_cases h : 0 ≤ n ∧ n ≤ greatestShift
  · have word : IsWord n := by
      simp only [IsWord, leastWord, greatestWord, greatestShift] at h ⊢
      omega
    simp [h, word.writable]
  · by_cases hw : Numeral.Writable n <;> simp [h, hw]

theorem shiftAmount_eq_ok_iff (n : Int) :
    (∃ k, shiftAmount n = .ok k) ↔ 0 ≤ n ∧ n ≤ greatestShift := by
  rw [shiftAmount]
  by_cases h : 0 ≤ n ∧ n ≤ greatestShift
  · simp [h]
  · by_cases hw : Numeral.Writable n <;> simp [h, hw]

/-! ## Instructions -/

namespace Instruction

/-- Whether an instruction comes upon a numeral beyond the limits once its operands are read:
the first of its operands that is refused is refused for its length. -/
def Exceeds : (i : Instruction) → Operands i.shape → Prop
  | .registers .., .rrr rd rs rt =>
    -- The sources come first, and the destination only when the result is there.
    IsOverlong rs ∨ IsRegister rs ∧ (IsOverlong rt ∨ IsRegister rt ∧ IsOverlong rd)
  | .immediate op _, .rri rd rs n =>
    if op.isShift then
      IsOverlong rs ∨ IsRegister rs ∧
        (¬Numeral.Writable n ∨ (0 ≤ n ∧ n ≤ greatestShift) ∧ IsOverlong rd)
    else IsOverlong rs ∨ IsRegister rs ∧ IsOverlong rd
  | .multiply, .rr _ _ => False
  | .divide, .rr rs rt => IsOverlong rs ∨ IsRegister rs ∧ IsOverlong rt
  | .moveFrom _, .r rd => IsOverlong rd

end Instruction

/-! ## Checks that halt -/

namespace Check

variable {m : Machine} {name : String}

theorem halts_verdicts_cons (check : Check) (rest : List Check) :
    Halts (verdicts m (check :: rest)) ↔
      Halts (check.verdict m) ∨ check.verdict m = .ok () ∧ Halts (verdicts m rest) := by
  rw [verdicts, halts_bind]
  refine or_congr_right ⟨?_, fun h => ⟨(), h⟩⟩
  rintro ⟨⟨⟩, h⟩
  exact h

theorem halts_source (h : IsToken name) :
    Halts ((Check.source name).verdict m) ↔ IsOverlong name := by
  rw [verdict, halts_bind, halts_source_iff h]
  simp [pure, Except.pure]

theorem source_eq_ok : (Check.source name).verdict m = .ok () ↔ IsRegister name := by
  rw [verdict, bind_eq_ok, ← source_eq_ok_iff]
  simp [pure, Except.pure]

theorem halts_amount (n : Int) : Halts ((Check.amount n).verdict m) ↔ ¬Numeral.Writable n := by
  rw [verdict, halts_bind, halts_shiftAmount_iff]
  simp [pure, Except.pure]

theorem amount_eq_ok (n : Int) :
    (Check.amount n).verdict m = .ok () ↔ 0 ≤ n ∧ n ≤ greatestShift := by
  rw [verdict, bind_eq_ok, ← shiftAmount_eq_ok_iff]
  simp [pure, Except.pure]

theorem halts_destination (h : IsToken name) :
    Halts ((Check.destination name).verdict m) ↔ IsOverlong name := by
  rw [verdict, halts_bind, halts_target_iff h]
  simp [pure, Except.pure]

/-- A divisor that is a register may be zero, but that is a fault. -/
theorem not_halts_divisor (h : IsRegister name) : ¬Halts ((Check.divisor name).verdict m) := by
  obtain ⟨i, hi⟩ := source_eq_ok_iff.2 h
  simp only [verdict, RegisterFile.get, hi, ok_bind, pure_bind]
  split <;> simp

end Check

/-- The checks of an instruction halt if it comes upon a numeral beyond the limits, whatever the
machine holds. -/
theorem Instruction.halts_verdicts_checks (m : Machine) (i : Instruction) {ops : Operands i.shape}
    (h : ∀ name ∈ ops.registers, IsToken name) :
    Halts (Check.verdicts m (i.checks ops)) ↔ i.Exceeds ops := by
  have none_left : ¬Halts (Check.verdicts m []) := not_halts_ok ()
  match i, ops with
  | .registers op mode, .rrr rd rs rt =>
    obtain ⟨hrd, hrs, hrt⟩ : IsToken rd ∧ IsToken rs ∧ IsToken rt := by
      simpa [Operands.registers] using h
    simp only [checks, Exceeds, Check.halts_verdicts_cons, Check.halts_source hrs,
      Check.halts_source hrt, Check.source_eq_ok, Check.halts_destination hrd, none_left, and_false,
      or_false]
  | .immediate op mode, .rri rd rs n =>
    obtain ⟨hrd, hrs⟩ : IsToken rd ∧ IsToken rs := by
      simpa [Operands.registers] using h
    by_cases hop : op.isShift = true
    · simp only [checks, Operation.checks, hop, Exceeds, ↓reduceIte, List.cons_append,
        List.nil_append, Check.halts_verdicts_cons, Check.halts_source hrs, Check.source_eq_ok,
        Check.halts_amount, Check.amount_eq_ok, Check.halts_destination hrd, none_left, and_false,
        or_false]
    · simp only [checks, Operation.checks, hop, Exceeds, Bool.false_eq_true, ↓reduceIte,
        List.nil_append, Check.halts_verdicts_cons, Check.halts_source hrs, Check.source_eq_ok,
        Check.halts_destination hrd, none_left, and_false, or_false]
  | .multiply, .rr rs rt => exact iff_of_false none_left id
  | .divide, .rr rs rt =>
    obtain ⟨hrs, hrt⟩ : IsToken rs ∧ IsToken rt := by
      simpa [Operands.registers] using h
    have divisor : ¬(IsRegister rt ∧ Halts ((Check.divisor rt).verdict m)) := fun hboth =>
      Check.not_halts_divisor hboth.1 hboth.2
    simp only [checks, Exceeds, Check.halts_verdicts_cons, Check.halts_source hrs,
      Check.halts_source hrt, Check.source_eq_ok, none_left, and_false, or_false, divisor]
  | .moveFrom a, .r rd =>
    have hrd : IsToken rd := h rd List.mem_cons_self
    simp only [checks, Exceeds, Check.halts_verdicts_cons, Check.halts_destination hrd, none_left,
      and_false, or_false]

/-! ## Instruction texts -/

/-- Whether operands have a decimal immediate with more digits than are read. What comes after the
immediate is not looked at. -/
def Operands.HasOverlongLiteral (shape : Shape) (s : List Char) : Prop :=
  shape = .rri ∧ ∃ rd rs immediate rest, readRriHead? s = some (rd, rs, immediate, rest) ∧
    immediate.isHex = false ∧ Numeral.digitLimit < immediate.digits.length

theorem Literal.value_eq_error_iff (l : Literal) :
    (∃ e, l.value = .error e) ↔ l.isHex = false ∧ Numeral.digitLimit < l.digits.length := by
  by_cases hhex : l.isHex = true
  · simp [value, hhex, pure, Except.pure]
  · by_cases hlimit : l.digits.length ≤ Numeral.digitLimit
    · simp [value, hhex, Numeral.readDecimal, hlimit, pure, Except.pure]
    · simp [value, hhex, Numeral.readDecimal, hlimit, Nat.lt_of_not_le hlimit]

theorem Operands.read?_eq_error_iff (shape : Shape) (s : List Char) :
    (∃ e, read? shape s = .error e) ↔ HasOverlongLiteral shape s := by
  cases shape with
  | rri =>
    simp only [read?, readRri?, HasOverlongLiteral]
    cases hhead : readRriHead? s with
    | none => simp
    | some head =>
      obtain ⟨rd, rs, immediate, rest⟩ := head
      refine exists_map_eq_error_iff.trans (immediate.value_eq_error_iff.trans ?_)
      constructor
      · exact fun h => ⟨trivial, rd, rs, immediate, rest, rfl, h⟩
      · rintro ⟨-, rd', rs', immediate', rest', heq, h⟩
        cases heq
        exact h
  | _ => simp [read?, HasOverlongLiteral]

theorem Operands.halts_parse_iff (shape : Shape) (opcode operands : String) :
    Halts (parse shape opcode operands) ↔
      HasOverlongLiteral shape (Text.expandTabs operands.toList) := by
  rw [← read?_eq_error_iff, parse]
  split
  case _ e he => simp [he]
  case _ he => simp [he]
  case _ ops he => simp [he]

/-- Whether an instruction text asks for a numeral beyond the limits. -/
def ExceedsLimits (opcode operands : String) : Prop :=
  ∃ op, Opcode.ofText? opcode = some op ∧
    (Operands.HasOverlongLiteral op.instruction.shape (Text.expandTabs operands.toList) ∨
      ∃ ops, Operands.parse op.instruction.shape opcode operands = .ok ops ∧
        op.instruction.Exceeds ops)

end TinyMips
