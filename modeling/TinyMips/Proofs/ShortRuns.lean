import Mathlib.Algebra.Group.Nat.Defs
import TinyMips.Proofs.Grammar

/-!
# Texts without long runs

A numeral beyond the limits is a long run of letters and digits, so a text without long runs does
not ask for one. Digits of base sixteen make greater numbers than decimal digits do, and so the
bound on the runs is below the limit on decimal digits: 3500 digits of either base make a number
that can be written. The main statement is `not_exceedsLimits_of_runsWithin`.
-/

namespace TinyMips

/-! ## Runs of letters and digits -/

namespace Text

/-- Whether no run of letters and digits in a text is longer than a bound. -/
def RunsWithin (bound : Nat) (s : List Char) : Prop :=
  ∀ run, run <:+: s → (∀ c ∈ run, isAsciiAlphanumeric c = true) → run.length ≤ bound

variable {bound : Nat} {s t : List Char}

theorem RunsWithin.of_isInfix (h : RunsWithin bound s) (hts : t <:+: s) : RunsWithin bound t :=
  fun run hrun halphanumeric => h run (hrun.trans hts) halphanumeric

/-- A text that is not longer than the bound has no run that is. -/
theorem runsWithin_of_length_le (h : s.length ≤ bound) : RunsWithin bound s :=
  fun _ hrun _ => Nat.le_trans hrun.length_le h

theorem isAsciiAlphanumeric_space : isAsciiAlphanumeric ' ' = false := by decide

/-- A run of letters and digits has no part in the spaces in front of it. -/
theorem isInfix_of_isInfix_spaces {run : List Char} (hne : run ≠ [])
    (hrun : ∀ c ∈ run, isAsciiAlphanumeric c = true) {n : Nat}
    (h : run <:+: List.replicate n ' ' ++ s) : run <:+: s := by
  induction n with
  | zero => exact h
  | succ n ih =>
    rw [List.replicate_succ, List.cons_append] at h
    rcases List.infix_cons_iff.1 h with hprefix | hinfix
    · obtain ⟨c, rest, rfl⟩ := List.exists_cons_of_ne_nil hne
      obtain ⟨rfl, -⟩ := List.cons_prefix_cons.1 hprefix
      have hspace := hrun ' ' List.mem_cons_self
      rw [isAsciiAlphanumeric_space] at hspace
      cases hspace
    · exact ih hinfix

/-- A run that a text starts with when its tabs are written as spaces is one that it starts with. -/
theorem isPrefix_of_isPrefix_expandTabsFrom {column : Nat} {run : List Char}
    (hrun : ∀ c ∈ run, isAsciiAlphanumeric c = true) (h : run <+: expandTabsFrom column s) :
    run <+: s := by
  induction s generalizing run column with
  | nil => exact h
  | cons d rest ih =>
    cases run with
    | nil => exact List.nil_prefix
    | cons c later =>
      obtain ⟨hc, hlater⟩ := List.forall_mem_cons.1 hrun
      rw [expandTabsFrom] at h
      split at h
      case _ =>
        -- A tab stands for one space at least, and a space is not in the run.
        have width : tabWidth - column % tabWidth = (tabWidth - column % tabWidth - 1) + 1 := by
          have := Nat.mod_lt column (show 0 < tabWidth by decide)
          omega
        rw [width, List.replicate_succ, List.cons_append] at h
        obtain ⟨rfl, -⟩ := List.cons_prefix_cons.1 h
        rw [isAsciiAlphanumeric_space] at hc
        cases hc
      case _ =>
        obtain ⟨rfl, h⟩ := List.cons_prefix_cons.1 h
        exact List.cons_prefix_cons.2 ⟨rfl, ih hlater h⟩

/-- Writing tabs as spaces makes no new runs. -/
theorem isInfix_of_isInfix_expandTabsFrom {column : Nat} {run : List Char} (hne : run ≠ [])
    (hrun : ∀ c ∈ run, isAsciiAlphanumeric c = true) (h : run <:+: expandTabsFrom column s) :
    run <:+: s := by
  induction s generalizing column with
  | nil => exact h
  | cons d rest ih =>
    by_cases htab : d = '\t'
    · rw [expandTabsFrom, if_pos htab] at h
      exact (ih (isInfix_of_isInfix_spaces hne hrun h)).trans (List.infix_cons (List.infix_refl _))
    · have kept : expandTabsFrom column (d :: rest) =
          d :: expandTabsFrom (if d = '\n' ∨ d = '\r' then 0 else column + 1) rest := by
        rw [expandTabsFrom, if_neg htab]
      rw [kept] at h
      rcases List.infix_cons_iff.1 h with hprefix | hinfix
      · rw [← kept] at hprefix
        exact (isPrefix_of_isPrefix_expandTabsFrom hrun hprefix).isInfix
      · exact (ih hinfix).trans (List.infix_cons (List.infix_refl _))

theorem RunsWithin.expandTabs (h : RunsWithin bound s) : RunsWithin bound (expandTabs s) := by
  intro run hrun halphanumeric
  by_cases hne : run = []
  · rw [hne]
    exact Nat.zero_le _
  · exact h run (isInfix_of_isInfix_expandTabsFrom hne halphanumeric hrun) halphanumeric

end Text

/-! ## Digits -/

/-- Digits that are below their base make a number that is below a power of it. -/
theorem Numeral.ofDigits_lt {base : Nat} {digits : List Nat} (h : ∀ d ∈ digits, d < base) :
    ofDigits base digits < base ^ digits.length := by
  have scaled : ∀ n, digits.foldl (fun n d => n * base + d) n < (n + 1) * base ^ digits.length := by
    induction digits with
    | nil =>
      intro n
      simp
    | cons d rest ih =>
      intro n
      obtain ⟨hd, hrest⟩ := List.forall_mem_cons.1 h
      calc (d :: rest).foldl (fun n d => n * base + d) n
          < (n * base + d + 1) * base ^ rest.length := ih hrest (n * base + d)
        _ ≤ (n + 1) * base * base ^ rest.length := by
            refine Nat.mul_le_mul_right _ ?_
            rw [Nat.add_mul, Nat.one_mul]
            omega
        _ = (n + 1) * base ^ (d :: rest).length := by
            rw [List.length_cons, Nat.pow_succ, Nat.mul_assoc, Nat.mul_comm base]
  simpa [ofDigits] using scaled 0

theorem Text.hexValue?_lt {c : Char} {v : Nat} (h : hexValue? c = some v) : v < 16 := by
  simp only [hexValue?, Char.le_def, UInt32.le_iff_toNat_le] at h
  change (if '0'.toNat ≤ c.toNat ∧ c.toNat ≤ '9'.toNat then _ else
    if 'a'.toNat ≤ c.toNat ∧ c.toNat ≤ 'f'.toNat then _ else
    if 'A'.toNat ≤ c.toNat ∧ c.toNat ≤ 'F'.toNat then _ else _) = _ at h
  have bounds : '0'.toNat = 48 ∧ '9'.toNat = 57 ∧ 'a'.toNat = 97 ∧ 'f'.toNat = 102 ∧
      'A'.toNat = 65 ∧ 'F'.toNat = 70 := by decide
  split at h
  case _ =>
    obtain rfl := Option.some.inj h
    omega
  case _ =>
    split at h
    case _ =>
      obtain rfl := Option.some.inj h
      omega
    case _ =>
      split at h
      case _ =>
        obtain rfl := Option.some.inj h
        omega
      case _ => cases h

theorem Literal.digitValue_lt {c : Char} (h : Text.isAsciiDigit c = true) : digitValue c < 10 := by
  simp only [Text.isAsciiDigit, Bool.and_eq_true, decide_eq_true_eq, Char.le_def,
    UInt32.le_iff_toNat_le] at h
  have hc : c.toNat ≤ '9'.toNat := h.2
  have bounds : '0'.toNat = 48 ∧ '9'.toNat = 57 := by decide
  rw [digitValue]
  omega

theorem pow_le_pow_of_pow_le {a b p q : Nat} (ha : 0 < a) (h : a ^ p ≤ b ^ q) {k c e : Nat}
    (hb : 0 < b) (hk : k ≤ p * c) (he : q * c ≤ e) : a ^ k ≤ b ^ e :=
  calc a ^ k
      ≤ a ^ (p * c) := Nat.pow_le_pow_right ha hk
    _ = (a ^ p) ^ c := Nat.pow_mul a p c
    _ ≤ (b ^ q) ^ c := Nat.pow_le_pow_left h c
    _ = b ^ (q * c) := (Nat.pow_mul b q c).symm
    _ ≤ b ^ e := Nat.pow_le_pow_right hb he

/-- A number below a power of sixteen can be written if the exponent is not too great. -/
theorem Numeral.writable_of_lt {n : Int} {k : Nat} (h : n.natAbs < 16 ^ k) (hk : k ≤ 3500) :
    Writable n := by
  have power : 16 ^ 35 ≤ 10 ^ 43 := by decide
  have limit : 43 * 100 ≤ digitLimit := by decide
  rw [writable_iff]
  -- The power is too great to be computed.
  generalize digitLimit = e at limit ⊢
  exact Nat.lt_of_lt_of_le h (pow_le_pow_of_pow_le (by decide) power (by decide) hk limit)

/-! ## Immediates -/

namespace Literal

variable {literal : Literal} {text : List Char} {bound : Nat} {n : Int}

/-- The digits of a literal are a run in its text. -/
theorem Spells.length_digits_le (h : literal.Spells text) (hruns : Text.RunsWithin bound text) :
    literal.digits.length ≤ bound := by
  cases h with
  | decimal hsign hne hdigits =>
    rw [List.length_map]
    refine hruns _ (List.suffix_append _ _).isInfix fun c hc => ?_
    exact isAsciiAlphanumeric_of_isAsciiDigit (hdigits c hc)
  | @hex _ sign digits mark hsign hmark hne hdigits =>
    have infix_text : digits <:+: sign ++ '0' :: mark :: digits :=
      ⟨sign ++ ['0', mark], [], by simp⟩
    refine Nat.le_trans (List.length_filterMap_le _ _) (hruns _ infix_text fun c hc => ?_)
    exact isAsciiAlphanumeric_of_hexValue? (hdigits c hc)

/-- The digits of a literal are digits of its base. -/
theorem Spells.forall_digits_lt (h : literal.Spells text) :
    ∀ d ∈ literal.digits, d < if literal.isHex then 16 else 10 := by
  cases h with
  | decimal hsign hne hdigits =>
    intro d hd
    obtain ⟨c, hc, rfl⟩ := List.mem_map.1 hd
    exact digitValue_lt (hdigits c hc)
  | hex hsign hmark hne hdigits =>
    intro d hd
    obtain ⟨c, hc, hv⟩ := List.mem_filterMap.1 hd
    exact Text.hexValue?_lt hv

/-- The integer that a literal denotes is made of its digits, whatever their base. -/
theorem natAbs_of_value (h : literal.value = .ok n) :
    n.natAbs = Numeral.ofDigits (if literal.isHex then 16 else 10) literal.digits := by
  have signed : ∀ size : Nat,
      (if literal.isNegative then -(size : Int) else size).natAbs = size := by
    intro size
    split
    · exact Int.natAbs_neg _
    · rfl
  by_cases hhex : literal.isHex = true
  · simp only [value, hhex, ↓reduceIte, ok_bind, pure, Except.pure, Except.ok.injEq] at h ⊢
    rw [← h, signed]
  · simp only [value, hhex, Bool.false_eq_true, ↓reduceIte, Numeral.readDecimal] at h ⊢
    split at h
    case isTrue => rw [← Except.ok.inj h, signed]
    case isFalse => cases h

/-- The integer that a short literal denotes can be written. -/
theorem Spells.writable (h : literal.Spells text) (hn : literal.value = .ok n)
    (hlength : literal.digits.length ≤ 3500) : Numeral.Writable n := by
  have below := Numeral.ofDigits_lt h.forall_digits_lt
  rw [← natAbs_of_value hn] at below
  have base : (if literal.isHex then 16 else 10) ≤ 16 := by
    split <;> decide
  exact Numeral.writable_of_lt (Nat.lt_of_lt_of_le below (Nat.pow_le_pow_left base _)) hlength

end Literal

/-! ## Instruction texts -/

/-- A name in short text is not overlong. -/
theorem not_isOverlong_of_runsWithin {name : String} (h : IsToken name)
    (hruns : Text.RunsWithin 3500 name.toList) : ¬IsOverlong name := by
  obtain ⟨letters, hname, -, hletters⟩ := h
  rw [isOverlong_iff hname]
  rintro ⟨-, hlong⟩
  rw [hname] at hruns
  have short := hruns letters (List.suffix_cons _ _).isInfix hletters
  have limit : Numeral.digitLimit = 4300 := rfl
  omega

namespace Operands

variable {shape : Shape} {ops : Operands shape} {field rest s : List Char}
  {fields : List (List Char)}

theorem IsField.isInfix (h : IsField field rest s) : field <:+: s := by
  obtain ⟨before, after, -, -, rfl⟩ := h
  exact ⟨before, after ++ rest, by simp⟩

theorem IsField.isInfix_rest (h : IsField field (',' :: rest) s) : rest <:+: s := by
  obtain ⟨before, after, -, -, rfl⟩ := h
  exact ⟨before ++ field ++ after ++ [','], [], by simp⟩

theorem Fields.isInfix (h : Fields fields s) : ∀ field ∈ fields, field <:+: s := by
  induction h with
  | last h => exact List.forall_mem_singleton.2 h.isInfix
  | cons h _ ih =>
    exact List.forall_mem_cons.2 ⟨h.isInfix, fun field hfield =>
      (ih field hfield).trans h.isInfix_rest⟩

/-- The registers that operands name are among the fields that spell them. -/
theorem Spells.mem_fields (h : ops.Spells fields) :
    ∀ name ∈ ops.registers, name.toList ∈ fields := by
  cases h <;> simp [registers]

theorem Written.isToken (h : ops.Written s) : ∀ name ∈ ops.registers, IsToken name := by
  obtain ⟨fields, hspells, -⟩ := h
  cases hspells <;> simp [registers, *]

/-- The registers in a text are parts of it. -/
theorem Written.isInfix (h : ops.Written s) : ∀ name ∈ ops.registers, name.toList <:+: s := by
  obtain ⟨fields, hspells, hfields⟩ := h
  exact fun name hname => hfields.isInfix _ (hspells.mem_fields name hname)

/-- The registers in a text without long runs are not overlong. -/
theorem Written.not_isOverlong (h : ops.Written s) (hruns : Text.RunsWithin 3500 s) :
    ∀ name ∈ ops.registers, ¬IsOverlong name := fun name hname =>
  not_isOverlong_of_runsWithin (h.isToken name hname) (hruns.of_isInfix (h.isInfix name hname))

theorem not_hasOverlongLiteral_of_runsWithin (h : Text.RunsWithin 3500 s) :
    ¬HasOverlongLiteral shape s := by
  rintro ⟨-, rd, rs, literal, rest, hread, -, hlong⟩
  obtain ⟨s₁, s₂, ⟨-, h₁⟩, ⟨-, h₂⟩, hliteral⟩ := readRriHead?_eq_some_iff.1 hread
  obtain ⟨gap, text, -, htext, rfl⟩ := exists_of_readLiteral? hliteral
  have part : text <:+: gap ++ (text ++ rest) := ⟨gap, rest, by simp⟩
  have short := htext.length_digits_le
    (h.of_isInfix ((part.trans h₂.isInfix_rest).trans h₁.isInfix_rest))
  have limit : Numeral.digitLimit = 4300 := rfl
  omega

/-- The immediate in a text without long runs can be written. -/
theorem Written.writable {rd rs : String} {n : Int} (h : (Operands.rri rd rs n).Written s)
    (hruns : Text.RunsWithin 3500 s) : Numeral.Writable n := by
  obtain ⟨fields, hspells, hfields⟩ := h
  cases hspells with
  | @rri _ _ text _ hrd hrs hn =>
    obtain ⟨literal, htext, hn⟩ := hn
    have part : text <:+: s := hfields.isInfix text (by simp)
    exact htext.writable hn (htext.length_digits_le (hruns.of_isInfix part))

end Operands

/-- An instruction with operands from a text without long runs comes upon no numeral beyond the
limits. -/
theorem Instruction.not_exceeds {i : Instruction} {ops : Operands i.shape} {s : List Char}
    (h : ops.Written s) (hruns : Text.RunsWithin 3500 s) : ¬i.Exceeds ops := by
  have short := h.not_isOverlong hruns
  match i, ops with
  | .registers op mode, .rrr rd rs rt =>
    simp only [Operands.registers, List.forall_mem_cons] at short
    simp [Exceeds, short]
  | .immediate op mode, .rri rd rs n =>
    have writable : Numeral.Writable n := h.writable hruns
    simp only [Operands.registers, List.forall_mem_cons] at short
    simp [Exceeds, short, writable]
  | .multiply, .rr rs rt => exact id
  | .divide, .rr rs rt =>
    simp only [Operands.registers, List.forall_mem_cons] at short
    simp [Exceeds, short]
  | .moveFrom a, .r rd => exact short rd List.mem_cons_self

/-- Operands without long runs of letters and digits ask for no numeral beyond the limits. -/
theorem not_exceedsLimits_of_runsWithin {operands : String}
    (hruns : Text.RunsWithin 3500 operands.toList) (opcode : String) :
    ¬ExceedsLimits opcode operands := by
  have expanded := hruns.expandTabs
  rintro ⟨op, -, hliteral | ⟨ops, hops, hexceeds⟩⟩
  · exact Operands.not_hasOverlongLiteral_of_runsWithin expanded hliteral
  · exact Instruction.not_exceeds (Operands.parse_eq_ok_iff.1 hops) expanded hexceeds

end TinyMips
