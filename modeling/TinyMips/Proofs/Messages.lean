import TinyMips.Proofs.GridTable

/-!
# Messages on one line

What a run prints for an instruction is a line that announces it and perhaps an error, and neither
is broken into several lines, whatever the program is. The operands are announced as they are
written, but they come from one line of the program (`Item.isOneLine_of_mem_ofSource`). A message
shows what it takes from the program between quotation marks, and there are no line breaks there,
since these are not printable (`Text.isOneLine_quoted`). The main statement is that the fault of an
instruction has a message on one line if the name of the instruction is on one
(`Opcode.isOneLine_message`).
-/

namespace TinyMips

/-! ## Texts -/

namespace Text

/-- Line breaks are not printable. -/
theorem isLineBreak_of_isPrintable {c : Char} (h : isPrintable c = true) :
    isLineBreak c = false := by
  by_contra hbreak
  rw [Bool.not_eq_false] at hbreak
  have breaks : ∀ n ∈ [10, 11, 12, 13, 28, 29, 30, 0x85, 0x2028, 0x2029],
      isPrintable (Char.ofNat n) = false := by
    decide +kernel
  have mem : c.toNat ∈ [10, 11, 12, 13, 28, 29, 30, 0x85, 0x2028, 0x2029] := by
    simp only [isLineBreak, Bool.or_eq_true, Bool.and_eq_true, decide_eq_true_eq, beq_iff_eq]
      at hbreak
    simp only [List.mem_cons, List.not_mem_nil]
    omega
  have unprintable := breaks _ mem
  rw [Char.ofNat_toNat, h] at unprintable
  cases unprintable

theorem isOneLine_toList_append {a b : String} (ha : IsOneLine a.toList) (hb : IsOneLine b.toList) :
    IsOneLine (a ++ b).toList := by
  rw [String.toList_append]
  exact isOneLine_append.2 ⟨ha, hb⟩

theorem isOneLine_quoted (s : String) : IsOneLine (quoted s).toList := by
  rw [quoted, String.toList_ofList]
  exact fun c hc => isLineBreak_of_isPrintable (isPrintable_of_mem_quote hc)

theorem isOneLine_toString (n : Int) : IsOneLine (toString n).toList :=
  (isCell_of_isPlain (isPlain_toString n)).isOneLine

theorem isOneLine_name (r : Register) : IsOneLine r.name.toList :=
  (isCell_of_isPlain r.isPlain_name).isOneLine

theorem isOneLine_expandTabsFrom (column : Nat) {s : List Char} (h : IsOneLine s) :
    IsOneLine (expandTabsFrom column s) := by
  induction s generalizing column with
  | nil => exact isOneLine_nil
  | cons c rest ih =>
    obtain ⟨hc, hrest⟩ := List.forall_mem_cons.1 h
    rw [expandTabsFrom]
    split
    · have spaces : IsOneLine (List.replicate (tabWidth - column % tabWidth) ' ') := fun d hd => by
        rw [List.eq_of_mem_replicate hd]
        decide
      exact isOneLine_append.2 ⟨spaces, ih 0 hrest⟩
    · exact List.forall_mem_cons.2 ⟨hc, ih _ hrest⟩

end Text

/-! ## Statements -/

namespace Statement

theorem sublist_of_readMnemonic? {s mnemonic rest : List Char}
    (h : readMnemonic? s = some (mnemonic, rest)) : mnemonic.Sublist s ∧ rest.Sublist s := by
  rw [readMnemonic?] at h
  split at h
  case _ c later hs =>
    have token : (c :: later).Sublist s := hs ▸ List.dropWhile_sublist Text.isGap
    split at h
    case _ =>
      obtain ⟨rfl, rfl⟩ := Prod.mk.inj (Option.some.inj h)
      exact ⟨((List.takeWhile_sublist isMnemonicChar).cons_cons c).trans token,
        ((List.dropWhile_sublist isMnemonicChar).cons c).trans token⟩
    case _ => cases h
  case _ => cases h

theorem sublist_readOperands (s : List Char) : (readOperands s).1.Sublist s := by
  rw [readOperands]
  split
  case _ c later hs =>
    have token : (c :: later).Sublist s := hs ▸ List.dropWhile_sublist Text.isGap
    split
    case _ => exact List.nil_sublist s
    case _ =>
      exact (Text.strip_sublist.trans ((List.takeWhile_sublist (· ≠ '#')).cons_cons c)).trans token
  case _ => exact List.nil_sublist s

/-- What is read from a line has been there, but for its tabs. -/
theorem sublist_of_ofLine? {n : Int} {text : List Char} {s : Statement}
    (h : ofLine? n text = .ok (some s)) :
    s.opcode.toList.Sublist (Text.expandTabs text) ∧
      s.operands.toList.Sublist (Text.expandTabs text) := by
  rw [ofLine?] at h
  split at h
  case _ => cases h
  case _ =>
    split at h
    case _ mnemonic operands hparts =>
      cases h
      obtain ⟨⟨mnemonic', rest⟩, hmnemonic, hparts⟩ := Option.bind_eq_some_iff.1 hparts
      obtain ⟨sub, hrest⟩ := sublist_of_readMnemonic? hmnemonic
      dsimp only at hparts
      split at hparts
      case _ =>
        cases hparts
        rw [String.toList_ofList, String.toList_ofList]
        exact ⟨sub, (sublist_readOperands rest).trans hrest⟩
      case _ => cases hparts
    case _ => cases h

/-- What is read from one line is on one line. -/
theorem isOneLine_of_ofLine? {n : Int} {text : List Char} {s : Statement}
    (h : ofLine? n text = .ok (some s)) (htext : Text.IsOneLine text) :
    Text.IsOneLine s.opcode.toList ∧ Text.IsOneLine s.operands.toList := by
  have expanded : Text.IsOneLine (Text.expandTabs text) := Text.isOneLine_expandTabsFrom 0 htext
  obtain ⟨hopcode, hoperands⟩ := sublist_of_ofLine? h
  exact ⟨expanded.sublist hopcode, expanded.sublist hoperands⟩

end Statement

namespace Item

/-- Whether a line holds no statement that has line breaks. -/
def IsOneLine : Item → Prop
  | .statement s => Text.IsOneLine s.opcode.toList ∧ Text.IsOneLine s.operands.toList
  | .malformed _ => True

/-- A statement of a program is read from one of its lines. -/
theorem exists_of_mem_ofLines {first : Int} {ls : List (List Char)} {s : Statement}
    (h : .statement s ∈ ofLines first ls) :
    ∃ n, ∃ text ∈ ls, Statement.ofLine? n text = .ok (some s) := by
  induction ls generalizing first with
  | nil => cases h
  | cons text rest ih =>
    rw [ofLines, List.mem_append, Option.mem_toList] at h
    rcases h with h | h
    · refine ⟨first, text, List.mem_cons_self, ?_⟩
      rw [ofLine?] at h
      split at h
      case _ => cases h
      case _ hs =>
        cases h
        exact hs
      case _ => cases h
    · obtain ⟨n, other, hother, hs⟩ := ih h
      exact ⟨n, other, List.mem_cons_of_mem text hother, hs⟩

theorem isOneLine_of_mem_ofLines {first : Int} {ls : List (List Char)}
    (h : ∀ text ∈ ls, Text.IsOneLine text) : ∀ item ∈ ofLines first ls, item.IsOneLine := by
  intro item hitem
  cases item with
  | malformed line => trivial
  | statement s =>
    obtain ⟨n, text, htext, hs⟩ := exists_of_mem_ofLines hitem
    exact Statement.isOneLine_of_ofLine? hs (h text htext)

/-- No statement of a program has line breaks. -/
theorem isOneLine_of_mem_ofSource (source : String) :
    ∀ item ∈ ofSource source, item.IsOneLine :=
  isOneLine_of_mem_ofLines (Text.isOneLine_of_mem_lines source.toList)

end Item

/-! ## Messages -/

section Words

open Text

/-- The words for a malformed line are on one line. -/
theorem Malformed.isOneLine_message (m : Malformed) : IsOneLine m.message.toList := by
  have number : IsOneLine ("Line " ++ toString m.line).toList :=
    isOneLine_toList_append (by decide) (isOneLine_toString m.line)
  have words : IsOneLine ("Line " ++ toString m.line ++ ": cannot parse ").toList :=
    isOneLine_toList_append number (by decide)
  exact isOneLine_toList_append words (isOneLine_quoted m.text)

/-- The texts that the words for a fault show without quotation marks. -/
def Fault.bareTexts : Fault → List String
  | .protectedRegister name => [name]
  | .malformedOperands _ opcode _ => [opcode]
  | _ => []

/-- The words for a fault are on one line if what they show without quotation marks is. -/
theorem Fault.isOneLine_message {f : Fault} (h : ∀ text ∈ f.bareTexts, IsOneLine text.toList) :
    IsOneLine f.message.toList := by
  cases f with
  | protectedRegister name =>
    exact isOneLine_toList_append (h name List.mem_cons_self) (by decide)
  | unknownRegister name => exact isOneLine_toList_append (by decide) (isOneLine_quoted name)
  | unknownOpcode opcode => exact isOneLine_toList_append (by decide) (isOneLine_quoted opcode)
  | malformedOperands shape opcode operands =>
    have hint : IsOneLine shape.hint.toList := by cases shape <;> decide
    have quoted : IsOneLine ("Malformed operands " ++ Text.quoted operands).toList :=
      isOneLine_toList_append (by decide) (isOneLine_quoted operands)
    have named : IsOneLine ("Malformed operands " ++ Text.quoted operands ++ " for " ++
        opcode).toList :=
      isOneLine_toList_append (isOneLine_toList_append quoted (by decide))
        (h opcode List.mem_cons_self)
    exact isOneLine_toList_append (isOneLine_toList_append named (by decide)) hint
  | shiftOutOfRange amount =>
    have number : IsOneLine ("Shift amount " ++ toString amount).toList :=
      isOneLine_toList_append (by decide) (isOneLine_toString amount)
    exact isOneLine_toList_append number (by decide)
  | divisionByZero =>
    change IsOneLine "Division by zero".toList
    decide

end Words

/-! ## Faults of instructions -/

namespace Check

variable {m : Machine} {f : Fault}

theorem bareTexts_of_source {name : String} (h : Bank.general.source name = .error (.fault f)) :
    f.bareTexts = [] := by
  rw [Bank.source] at h
  split at h
  case _ => cases h
  case _ =>
    cases h
    rfl
  case _ => cases h

/-- Checks show nothing without quotation marks but the names of registers. -/
theorem bareTexts_of_verdict {check : Check} (h : check.verdict m = .error (.fault f)) :
    ∀ text ∈ f.bareTexts, ∃ r : Register, text = r.name := by
  cases check with
  | source name =>
    rcases bind_eq_error.1 h with h | ⟨i, -, h⟩
    · simp [bareTexts_of_source h]
    · cases h
  | amount n =>
    rcases bind_eq_error.1 h with h | ⟨k, -, h⟩
    · rw [shiftAmount] at h
      split at h
      case _ => cases h
      case _ =>
        split at h
        case _ =>
          cases h
          simp [Fault.bareTexts]
        case _ => cases h
    · cases h
  | divisor name =>
    rcases bind_eq_error.1 h with h | ⟨b, -, h⟩
    · rcases bind_eq_error.1 h with h | ⟨i, -, h⟩
      · simp [bareTexts_of_source h]
      · cases h
    · split at h
      case _ =>
        cases h
        simp [Fault.bareTexts]
      case _ => cases h
  | destination name =>
    rcases bind_eq_error.1 h with h | ⟨i, -, h⟩
    · rcases bind_eq_error.1 h with h | ⟨i, -, h⟩
      · simp [bareTexts_of_source h]
      · split at h
        case _ =>
          cases h
          exact List.forall_mem_singleton.2 ⟨.general i, rfl⟩
        case _ => cases h
    · cases h

theorem bareTexts_of_verdicts {checks : List Check}
    (h : Check.verdicts m checks = .error (.fault f)) :
    ∀ text ∈ f.bareTexts, ∃ r : Register, text = r.name := by
  induction checks with
  | nil => cases h
  | cons check rest ih =>
    rcases bind_eq_error.1 h with h | ⟨_, -, h⟩
    · exact bareTexts_of_verdict h
    · exact ih h

end Check

/-- **Faults are told on one line.** If an instruction with a name on one line is at fault, the
words for it are on one line, whatever the operands are. -/
theorem Opcode.isOneLine_message {m : Machine} {op : Opcode} {opcode operands : String} {f : Fault}
    (h : op.instruction.interpret m opcode operands >>= Instruction.Effect.verdict =
      .error (.fault f)) (hopcode : Text.IsOneLine opcode.toList) :
    Text.IsOneLine f.message.toList := by
  refine Fault.isOneLine_message fun text htext => ?_
  rw [Opcode.interpret_verdict] at h
  rcases bind_eq_error.1 h with h | ⟨ops, -, h⟩
  · -- The operands cannot be read, and the message shows the name of the instruction.
    rw [Operands.parse] at h
    split at h
    case _ => cases h
    case _ =>
      cases h
      obtain rfl := List.mem_singleton.1 htext
      exact hopcode
    case _ => cases h
  · obtain ⟨r, rfl⟩ := Check.bareTexts_of_verdicts h text htext
    exact Text.isOneLine_name r

end TinyMips
