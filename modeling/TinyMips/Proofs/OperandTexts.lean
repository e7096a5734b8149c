import Mathlib.Data.List.Basic
import Mathlib.Data.Nat.Digits.Defs
import TinyMips.Proofs.Grammar

/-!
# Operand texts

What becomes of an operand text, whatever it is. The grammar is said here place by place
(`Operands.ReadFrom`): a shape has its places in a row, each place holds a register as it is written
or an integer that is spelled in base ten or sixteen (`Numeral.Spells`), and the digits count by
their positions. The main statement is that the reader answers on just the texts of the grammar,
with what stands in their places, that it comes upon a numeral which is too long in just the texts
that start with one after two registers, and that all other texts are malformed
(`Operands.parse_cases`).
-/

namespace TinyMips

/-! ## Digits -/

namespace Numeral

/-- The digits of base sixteen in the order of their values. Those of base ten come first. -/
def digitRow : List Char :=
  ['0', '1', '2', '3', '4', '5', '6', '7', '8', '9', 'a', 'b', 'c', 'd', 'e', 'f']

/-- Whether a character is a digit of a base up to sixteen, capital letters being as good as small
ones. -/
def IsDigit (base : Nat) (c : Char) : Prop :=
  c.toLower ∈ digitRow.take base

instance (base : Nat) (c : Char) : Decidable (IsDigit base c) :=
  inferInstanceAs (Decidable (_ ∈ _))

/-- The value of a digit. -/
def rank (c : Char) : Nat :=
  digitRow.idxOf c.toLower

/-- The number that digits spell in a base: the last counts ones, and each other counts as much as
`base` of the digit after it. -/
def positional (base : Nat) (digits : List Char) : Nat :=
  Nat.ofDigits base (digits.reverse.map rank)

/-- Leading zeros make no difference. -/
theorem positional_leadingZeros (base count : Nat) (digits : List Char) :
    positional base (List.replicate count '0' ++ digits) = positional base digits := by
  have zero : rank '0' = 0 := by decide
  rw [positional, List.reverse_append, List.map_append, List.reverse_replicate, List.map_replicate,
    zero, Nat.ofDigits_append_replicate_zero, positional]

example (count : Nat) : positional 16 (List.replicate count '0' ++ ['f', 'F']) = 255 := by
  rw [positional_leadingZeros]
  decide

/-- The digits are all in ASCII. -/
theorem IsDigit.toNat_lt {c : Char} (h : IsDigit 16 c) : c.toNat < 128 := by
  have row : ((digitRow.take 16).all fun d => d.toNat < 128) = true := by decide
  have lower := of_decide_eq_true (List.all_eq_true.1 row _ h)
  by_cases hupper : 'A'.val ≤ c.val ∧ c.val ≤ 'Z'.val
  · have bound : c.val.toNat ≤ 'Z'.val.toNat := UInt32.le_iff_toNat_le.1 hupper.2
    exact Nat.lt_of_le_of_lt bound (by decide)
  · have same : c.toLower = c := dif_neg hupper
    rwa [same] at lower

/-- What is said of the digits here is what the reader of immediates goes by. -/
theorem isDigit_ofNat :
    ∀ n : Fin 128,
      (IsDigit 10 (Char.ofNat n) ↔ Text.isAsciiDigit (Char.ofNat n) = true) ∧
      (IsDigit 16 (Char.ofNat n) ↔ (Text.hexValue? (Char.ofNat n)).isSome = true) ∧
      (IsDigit 10 (Char.ofNat n) → Literal.digitValue (Char.ofNat n) = rank (Char.ofNat n)) ∧
      (IsDigit 16 (Char.ofNat n) → Text.hexValue? (Char.ofNat n) = some (rank (Char.ofNat n))) := by
  decide +kernel

theorem isDigit_of_toNat_lt {c : Char} (h : c.toNat < 128) :
    (IsDigit 10 c ↔ Text.isAsciiDigit c = true) ∧
      (IsDigit 16 c ↔ (Text.hexValue? c).isSome = true) ∧
      (IsDigit 10 c → Literal.digitValue c = rank c) ∧
      (IsDigit 16 c → Text.hexValue? c = some (rank c)) := by
  have hc := isDigit_ofNat ⟨c.toNat, h⟩
  rwa [Char.ofNat_toNat] at hc

theorem IsDigit.of_le {c : Char} {a b : Nat} (h : IsDigit a c) (hab : a ≤ b) : IsDigit b c :=
  List.take_subset_take_left digitRow hab h

theorem isDigit_ten_iff {c : Char} : IsDigit 10 c ↔ Text.isAsciiDigit c = true := by
  constructor
  · intro h
    exact (isDigit_of_toNat_lt (h.of_le (by decide)).toNat_lt).1.1 h
  · intro h
    have ascii := Text.toNat_lt_of_isAsciiAlphanumeric
      (Literal.isAsciiAlphanumeric_of_isAsciiDigit h)
    exact (isDigit_of_toNat_lt ascii).1.2 h

theorem isDigit_sixteen_iff {c : Char} : IsDigit 16 c ↔ (Text.hexValue? c).isSome = true := by
  constructor
  · intro h
    exact (isDigit_of_toNat_lt h.toNat_lt).2.1.1 h
  · intro h
    have ascii := Text.toNat_lt_of_isAsciiAlphanumeric (Literal.isAsciiAlphanumeric_of_hexValue? h)
    exact (isDigit_of_toNat_lt ascii).2.1.2 h

theorem ofDigits_eq (base : Nat) (values : List Nat) :
    ofDigits base values = Nat.ofDigits base values.reverse := by
  rw [ofDigits, Nat.ofDigits_eq_foldr, List.foldr_reverse]
  congr 1
  funext n d
  rw [Nat.cast_id, Nat.mul_comm, Nat.add_comm]

theorem ofDigits_map_digitValue {digits : List Char} (h : ∀ c ∈ digits, IsDigit 10 c) :
    ofDigits 10 (digits.map Literal.digitValue) = positional 10 digits := by
  have values : digits.map Literal.digitValue = digits.map rank := List.map_congr_left fun c hc =>
    have hten := h c hc
    (isDigit_of_toNat_lt (hten.of_le (by decide)).toNat_lt).2.2.1 hten
  rw [values, ofDigits_eq, positional, List.map_reverse]

theorem ofDigits_filterMap_hexValue? {digits : List Char} (h : ∀ c ∈ digits, IsDigit 16 c) :
    ofDigits 16 (digits.filterMap Text.hexValue?) = positional 16 digits := by
  have values : digits.filterMap Text.hexValue? = digits.map rank :=
    List.filterMap_eq_map_iff_forall_eq_some.2 fun c hc =>
      (isDigit_of_toNat_lt (h c hc).toNat_lt).2.2.2 (h c hc)
  rw [values, ofDigits_eq, positional, List.map_reverse]

/-! ## Integers -/

/-- A number with a sign. -/
def signed (isNegative : Bool) (n : Nat) : Int :=
  if isNegative then -n else n

/-- How an integer is spelled: a sign or none, and then digits, which are of base sixteen after `0x`
or `0X` and of base ten without it. There may be any number of the former and up to 4300 of the
latter. -/
inductive Spells : Int → List Char → Prop
  /-- in base ten -/
  | decimal {isNegative : Bool} {sign digits : List Char} (hsign : Literal.IsSign sign isNegative)
    (hne : digits ≠ []) (hdigits : ∀ c ∈ digits, IsDigit 10 c) (hlength : digits.length ≤ 4300) :
    Spells (signed isNegative (positional 10 digits)) (sign ++ digits)
  /-- in base sixteen -/
  | hex {isNegative : Bool} {sign digits : List Char} {mark : Char}
    (hsign : Literal.IsSign sign isNegative) (hmark : mark = 'x' ∨ mark = 'X') (hne : digits ≠ [])
    (hdigits : ∀ c ∈ digits, IsDigit 16 c) :
    Spells (signed isNegative (positional 16 digits)) (sign ++ '0' :: mark :: digits)

theorem value_eq_map (isNegative isHex : Bool) (values : List Nat) :
    Literal.value ⟨isNegative, isHex, values⟩ =
      (if isHex then .ok (ofDigits 16 values) else readDecimal values).map (signed isNegative) := by
  rw [Literal.value]
  cases isHex <;> cases isNegative <;> rfl

/-- Decimal digits are counted before they are read. -/
theorem value_decimal (isNegative : Bool) (values : List Nat) :
    Literal.value ⟨isNegative, false, values⟩ =
      if values.length ≤ 4300 then .ok (signed isNegative (ofDigits 10 values))
      else .error (.tooLongToRead values.length) := by
  rw [value_eq_map, if_neg Bool.false_ne_true, readDecimal]
  split
  case isTrue h => exact (if_pos h).symm
  case isFalse h => exact (if_neg h).symm

/-- An immediate is refused for its length, and for nothing else. -/
theorem value_eq_error_iff {literal : Literal} {e : Error} :
    literal.value = .error e ↔ literal.isHex = false ∧ 4300 < literal.digits.length ∧
      e = .tooLongToRead literal.digits.length := by
  obtain ⟨isNegative, isHex, values⟩ := literal
  cases isHex with
  | true => simp [value_eq_map, Except.map]
  | false =>
    by_cases hlength : values.length ≤ 4300
    · simp [value_decimal, hlength]
    · simp [value_decimal, hlength, Nat.lt_of_not_le hlength, eq_comm]

theorem spells_iff {n : Int} {text : List Char} : Spells n text ↔ Literal.Denotes text n := by
  constructor
  · rintro (⟨hsign, hne, hdigits, hlength⟩ | ⟨hsign, hmark, hne, hdigits⟩)
    · refine ⟨_, .decimal hsign hne fun c hc => isDigit_ten_iff.1 (hdigits c hc), ?_⟩
      rw [value_decimal, List.length_map, if_pos hlength, ofDigits_map_digitValue hdigits]
    · refine ⟨_, .hex hsign hmark hne fun c hc => isDigit_sixteen_iff.1 (hdigits c hc), ?_⟩
      rw [value_eq_map, if_pos rfl, ofDigits_filterMap_hexValue? hdigits]
      rfl
  · rintro ⟨literal, ⟨hsign, hne, hdigits⟩ | ⟨hsign, hmark, hne, hdigits⟩, hvalue⟩
    · have digits := fun c hc => isDigit_ten_iff.2 (hdigits c hc)
      rw [value_decimal, List.length_map] at hvalue
      split at hvalue
      case isTrue hlength =>
        obtain rfl := Except.ok.inj hvalue
        rw [ofDigits_map_digitValue digits]
        exact .decimal hsign hne digits hlength
      case isFalse => cases hvalue
    · have digits := fun c hc => isDigit_sixteen_iff.2 (hdigits c hc)
      rw [value_eq_map, if_pos rfl, ofDigits_filterMap_hexValue? digits] at hvalue
      obtain rfl := Except.ok.inj hvalue
      exact .hex hsign hmark hne digits

/-! ## Decimal digits without end -/

/-- Whether a text starts with a gap, a sign or none, and then exactly so many decimal digits,
whatever comes after them. -/
def StartsWith (count : Nat) (s : List Char) : Prop :=
  ∃ gap sign isNegative digits rest, Text.IsGap gap ∧ Literal.IsSign sign isNegative ∧
    (∀ c ∈ digits, IsDigit 10 c) ∧ digits.length = count ∧ (∀ c ∈ rest.head?, ¬IsDigit 10 c) ∧
    s = gap ++ (sign ++ (digits ++ rest))

theorem stops_isAsciiDigit_iff {s : List Char} :
    Text.Stops Text.isAsciiDigit s ↔ ∀ c ∈ s.head?, ¬IsDigit 10 c := by
  simp only [Text.Stops, isDigit_ten_iff, Bool.not_eq_true]

/-- A decimal immediate is read with all the digits that are there. -/
theorem startsWith_of_readLiteral? {s rest : List Char} {literal : Literal}
    (h : Operands.readLiteral? s = some (literal, rest)) (hdecimal : literal.isHex = false) :
    StartsWith literal.digits.length s := by
  obtain ⟨gap, hgap, hs⟩ := Text.exists_gap s
  obtain ⟨sign, hsign, hbody⟩ := Literal.exists_readSign (Text.skipGap s)
  rw [Operands.readLiteral?, Literal.read?] at h
  generalize hread : Numeral.readSign (Text.skipGap s) = signed at *
  obtain ⟨isNegative, body⟩ := signed
  dsimp only at h hsign hbody
  cases hmark : Literal.hexBody? body with
  | some digits =>
    simp only [hmark] at h
    obtain ⟨rfl, -⟩ := Prod.mk.inj (Option.some.inj h)
    cases hdecimal
  | none =>
    simp only [hmark] at h
    split at h
    case _ => cases h
    case _ digits hne =>
      obtain ⟨rfl, rfl⟩ := Prod.mk.inj (Option.some.inj h)
      refine ⟨gap, sign, isNegative, body.takeWhile Text.isAsciiDigit,
        body.dropWhile Text.isAsciiDigit, hgap, hsign, fun c hc => ?_, ?_, ?_, ?_⟩
      · exact isDigit_ten_iff.2 (List.mem_takeWhile_imp hc)
      · rw [List.length_map]
      · exact stops_isAsciiDigit_iff.1 (Text.stops_dropWhile _ _)
      · rw [List.takeWhile_append_dropWhile, ← hbody]
        exact hs

/-- Where there are two decimal digits or more, they are read. -/
theorem StartsWith.readLiteral? {count : Nat} {s : List Char} (h : StartsWith count s)
    (hcount : 1 < count) :
    ∃ literal rest, Operands.readLiteral? s = some (literal, rest) ∧ literal.isHex = false ∧
      literal.digits.length = count := by
  obtain ⟨gap, sign, isNegative, digits, rest, hgap, hsign, hdigits, rfl, hrest, rfl⟩ := h
  have ascii : ∀ c ∈ digits, Text.isAsciiDigit c = true := fun c hc =>
    isDigit_ten_iff.1 (hdigits c hc)
  have stops : Text.Stops Text.isAsciiDigit rest := stops_isAsciiDigit_iff.2 hrest
  -- The second digit stands where the mark of base sixteen would.
  obtain ⟨first, second, later, rfl⟩ : ∃ first second later, digits = first :: second :: later := by
    match digits, hcount with
    | first :: second :: later, _ => exact ⟨first, second, later, rfl⟩
  have unmarked : Literal.hexBody? (first :: second :: later ++ rest) = none :=
    Literal.hexBody?_eq_none fun c hc => by
      obtain rfl := Option.some.inj hc
      exact Literal.not_mark_of_isAsciiDigit (ascii _ (by simp))
  have spelled : Literal.Spells _ (sign ++ first :: second :: later) :=
    .decimal hsign (List.cons_ne_nil _ _) ascii
  refine ⟨⟨isNegative, false, (first :: second :: later).map Literal.digitValue⟩, rest, ?_, rfl,
    List.length_map _⟩
  have start := spelled.stops rest
  rw [List.append_assoc] at start
  rw [Operands.readLiteral?, Text.skipGap_gap_append hgap start]
  exact Literal.read?_decimal hsign (List.cons_ne_nil _ _) ascii stops unmarked

end Numeral

/-! ## Places -/

/-- The places in which operands can stand. -/
inductive Place where
  /-- the destination -/
  | rd
  /-- the first source -/
  | rs
  /-- the second source -/
  | rt
  /-- the immediate -/
  | immediate
  deriving DecidableEq, Repr

/-- What can stand in a place. -/
inductive Entry where
  /-- a register, by its name as it is written -/
  | register (name : String)
  /-- an integer -/
  | integer (n : Int)
  deriving DecidableEq, Repr

/-- How an entry is written. -/
inductive Entry.WrittenAs : Entry → List Char → Prop
  /-- a register as it is named -/
  | register {name : String} (h : IsToken name) : WrittenAs (.register name) name.toList
  /-- an integer as it is spelled -/
  | integer {n : Int} {text : List Char} (h : Numeral.Spells n text) : WrittenAs (.integer n) text

/-- The places of a shape from left to right. -/
def Shape.places : Shape → List Place
  | .rrr => [.rd, .rs, .rt]
  | .rri => [.rd, .rs, .immediate]
  | .rr => [.rs, .rt]
  | .r => [.rd]

namespace Operands

/-- What stands in a place, if anything does. -/
def entry? : {shape : Shape} → Operands shape → Place → Option Entry
  | _, .rrr rd _ _, .rd => some (.register rd)
  | _, .rrr _ rs _, .rs => some (.register rs)
  | _, .rrr _ _ rt, .rt => some (.register rt)
  | _, .rri rd _ _, .rd => some (.register rd)
  | _, .rri _ rs _, .rs => some (.register rs)
  | _, .rri _ _ n, .immediate => some (.integer n)
  | _, .rr rs _, .rs => some (.register rs)
  | _, .rr _ rt, .rt => some (.register rt)
  | _, .r rd, .rd => some (.register rd)
  | _, _, _ => none

/-- Whether operands are what a text has in the places of their shape. -/
structure ReadFrom {shape : Shape} (ops : Operands shape) (s : List Char) : Prop where
  /-- the text has a field for each place of the shape, in which what stands there is written -/
  filled : ∃ fields, Fields fields s ∧ List.Forall₂
    (fun place field => ∃ entry, ops.entry? place = some entry ∧ entry.WrittenAs field)
    shape.places fields
  /-- nothing stands in any other place -/
  empty : ∀ place, place ∉ shape.places → ops.entry? place = none

theorem entry?_eq_none {shape : Shape} (ops : Operands shape) :
    ∀ place, place ∉ shape.places → ops.entry? place = none := by
  intro place hplace
  cases ops <;> cases place <;> first | rfl | exact absurd (by decide) hplace

/-- What stands in the places of the shape is what the operands spell. -/
theorem forall₂_places_iff {shape : Shape} {ops : Operands shape} {fields : List (List Char)} :
    List.Forall₂ (fun place field => ∃ entry, ops.entry? place = some entry ∧ entry.WrittenAs field)
      shape.places fields ↔ ops.Spells fields := by
  constructor
  · intro h
    -- Each place holds the entry that it is looked up with, and the constructors say how it is
    -- written.
    cases ops with
    | rrr rd rs rt =>
      obtain _ | ⟨⟨_, ⟨⟩, ⟨hrd⟩⟩, _ | ⟨⟨_, ⟨⟩, ⟨hrs⟩⟩, _ | ⟨⟨_, ⟨⟩, ⟨hrt⟩⟩, ⟨⟩⟩⟩⟩ := h
      exact .rrr hrd hrs hrt
    | rri rd rs n =>
      obtain _ | ⟨⟨_, ⟨⟩, ⟨hrd⟩⟩, _ | ⟨⟨_, ⟨⟩, ⟨hrs⟩⟩, _ | ⟨⟨_, ⟨⟩, hn⟩, ⟨⟩⟩⟩⟩ := h
      cases hn with
      | integer hn => exact .rri hrd hrs (Numeral.spells_iff.1 hn)
    | rr rs rt =>
      obtain _ | ⟨⟨_, ⟨⟩, ⟨hrs⟩⟩, _ | ⟨⟨_, ⟨⟩, ⟨hrt⟩⟩, ⟨⟩⟩⟩ := h
      exact .rr hrs hrt
    | r rd =>
      obtain _ | ⟨⟨_, ⟨⟩, ⟨hrd⟩⟩, ⟨⟩⟩ := h
      exact .r hrd
  · intro h
    cases h with
    | rrr hrd hrs hrt =>
      exact .cons ⟨_, rfl, .register hrd⟩ (.cons ⟨_, rfl, .register hrs⟩
        (.cons ⟨_, rfl, .register hrt⟩ .nil))
    | rri hrd hrs hn =>
      exact .cons ⟨_, rfl, .register hrd⟩ (.cons ⟨_, rfl, .register hrs⟩
        (.cons ⟨_, rfl, .integer (Numeral.spells_iff.2 hn)⟩ .nil))
    | rr hrs hrt =>
      exact .cons ⟨_, rfl, .register hrs⟩ (.cons ⟨_, rfl, .register hrt⟩ .nil)
    | r hrd => exact .cons ⟨_, rfl, .register hrd⟩ .nil

theorem readFrom_iff {shape : Shape} {ops : Operands shape} {s : List Char} :
    ops.ReadFrom s ↔ ops.Written s := by
  constructor
  · rintro ⟨⟨fields, hfields, hplaces⟩, -⟩
    exact ⟨fields, forall₂_places_iff.1 hplaces, hfields⟩
  · rintro ⟨fields, hspells, hfields⟩
    exact ⟨⟨fields, hfields, forall₂_places_iff.2 hspells⟩, ops.entry?_eq_none⟩

/-! ## Readers -/

/-- Whether a text starts with two registers, a comma after each of them, and then with a decimal
immediate of so many digits. -/
def ReachesDecimal (count : Nat) (s : List Char) : Prop :=
  ∃ rd rs s₁ s₂, (IsToken rd ∧ IsField rd.toList (',' :: s₁) s) ∧
    (IsToken rs ∧ IsField rs.toList (',' :: s₂) s₁) ∧ Numeral.StartsWith count s₂

/-- Reading comes upon a numeral that is too long where an immediate is looked for. -/
theorem read?_eq_error {shape : Shape} {s : List Char} {e : Numeral.Error} :
    read? shape s = .error e ↔
      shape = .rri ∧ ∃ count, 4300 < count ∧ e = .tooLongToRead count ∧ ReachesDecimal count s := by
  cases shape with
  | rri =>
    constructor
    · intro h
      refine ⟨rfl, ?_⟩
      rw [read?, readRri?] at h
      split at h
      case _ => cases h
      case _ rd rs literal rest hhead =>
        obtain ⟨s₁, s₂, hrd, hrs, hliteral⟩ := readRriHead?_eq_some_iff.1 hhead
        have refused : literal.value = .error e := by
          rcases bind_eq_error.1 h with h | ⟨n, -, h⟩
          · exact h
          · cases h
        obtain ⟨hdecimal, hlength, he⟩ := Numeral.value_eq_error_iff.1 refused
        exact ⟨_, hlength, he, rd, rs, s₁, s₂, hrd, hrs,
          Numeral.startsWith_of_readLiteral? hliteral hdecimal⟩
    · rintro ⟨-, count, hcount, rfl, rd, rs, s₁, s₂, hrd, hrs, hstart⟩
      obtain ⟨literal, rest, hliteral, hdecimal, rfl⟩ := hstart.readLiteral? (by omega)
      have refused := Numeral.value_eq_error_iff.2 ⟨hdecimal, hcount, rfl⟩
      rw [read?, readRri?, readRriHead?_eq_some_iff.2 ⟨s₁, s₂, hrd, hrs, hliteral⟩]
      exact bind_eq_error.2 (.inl refused)
  | _ => simp [read?]

theorem parse_eq_numeral_iff {shape : Shape} {opcode operands : String} {e : Numeral.Error} :
    parse shape opcode operands = .error (.numeral e) ↔
      read? shape (Text.expandTabs operands.toList) = .error e := by
  rw [parse]
  split
  case _ e' he => simp [he]
  case _ he => simp [he]
  case _ ops he => simp [he]

theorem parse_eq_fault_iff {shape : Shape} {opcode operands : String} {f : Fault} :
    parse shape opcode operands = .error (.fault f) ↔
      f = .malformedOperands shape opcode operands ∧
        read? shape (Text.expandTabs operands.toList) = .ok none := by
  rw [parse]
  split
  case _ e he => simp [he]
  case _ he => simp [he, eq_comm]
  case _ ops he => simp [he]

theorem read?_eq_none_iff {shape : Shape} {s : List Char} :
    read? shape s = .ok none ↔
      (∀ ops, ¬read? shape s = .ok (some ops)) ∧ ∀ e, ¬read? shape s = .error e := by
  rcases read? shape s with e | _ | ops <;> simp

/-- **What becomes of an operand text.** Tabs are taken for the spaces that they stand for.

Operands are read from a text if and only if they are what it has in the places of the shape:
registers as they are written, integers as their digits count, and nothing in places that the shape
does not have. A numeral is too long to be read if and only if an immediate is looked for, two
registers and a comma after each are found, and more than 4300 decimal digits come next after a
sign or none, whatever there is behind them. In all other cases, and in no others, the operands are
malformed. -/
theorem parse_cases (shape : Shape) (opcode operands : String) :
    let s := Text.expandTabs operands.toList
    let overlong := fun count => shape = .rri ∧ 4300 < count ∧ ReachesDecimal count s
    (∀ ops, parse shape opcode operands = .ok ops ↔ ops.ReadFrom s) ∧
      (∀ e, parse shape opcode operands = .error (.numeral e) ↔
        ∃ count, overlong count ∧ e = .tooLongToRead count) ∧
      ∀ f, parse shape opcode operands = .error (.fault f) ↔
        f = .malformedOperands shape opcode operands ∧
          (∀ ops : Operands shape, ¬ops.ReadFrom s) ∧ ∀ count, ¬overlong count := by
  intro s overlong
  have accepted : ∀ ops, parse shape opcode operands = .ok ops ↔ ops.ReadFrom s := fun ops =>
    parse_eq_ok_iff.trans readFrom_iff.symm
  have refused : ∀ e, read? shape s = .error e ↔
      ∃ count, overlong count ∧ e = .tooLongToRead count := fun e => by
    rw [read?_eq_error]
    constructor
    · rintro ⟨hshape, count, hcount, he, hreaches⟩
      exact ⟨count, ⟨hshape, hcount, hreaches⟩, he⟩
    · rintro ⟨count, ⟨hshape, hcount, hreaches⟩, he⟩
      exact ⟨hshape, count, hcount, he, hreaches⟩
  refine ⟨accepted, fun e => ?_, fun f => ?_⟩
  · rw [parse_eq_numeral_iff, refused]
  · rw [parse_eq_fault_iff, read?_eq_none_iff]
    refine and_congr_right fun _ => and_congr ?_ ?_
    · exact forall_congr' fun ops => not_congr (read?_eq_ok_iff.trans readFrom_iff.symm)
    · constructor
      · intro h count hcount
        exact h _ ((refused _).2 ⟨count, hcount, rfl⟩)
      · intro h e he
        obtain ⟨count, hcount, -⟩ := (refused e).1 he
        exact h count hcount

/-- Zeros in front and a mark for base sixteen are part of how an integer can be written. -/
example : parse .rri "addi" " $8 ,$t0,-0x00fF\r" = .ok (.rri "$8" "$t0" (-255)) := by decide

end Operands

end TinyMips
