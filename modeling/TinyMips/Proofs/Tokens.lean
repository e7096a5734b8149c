import Mathlib.Data.List.TakeWhile
import TinyMips.Proofs.Check

/-!
# Tokens

What operands can look like once they have been read. Every register among them is a dollar sign
with letters and digits of ASCII after it (`Operands.isToken_of_parse`), so of the many scripts that
digits can be written in, only one can reach the registers.
-/

namespace TinyMips

/-- A name as operands are read: a dollar sign, and letters and digits of ASCII after it. -/
def IsToken (name : String) : Prop :=
  ∃ letters, name.toList = '$' :: letters ∧ letters ≠ [] ∧
    ∀ c ∈ letters, Text.isAsciiAlphanumeric c = true

/-- A token has no characters but its dollar sign, letters and digits. -/
theorem IsToken.notMem {name : String} (h : IsToken name) {c : Char} (hdollar : c ≠ '$')
    (hc : Text.isAsciiAlphanumeric c = false) : c ∉ name.toList := by
  obtain ⟨letters, hname, -, hletters⟩ := h
  rw [hname, List.mem_cons, not_or]
  refine ⟨hdollar, fun hmem => ?_⟩
  cases hc.symm.trans (hletters c hmem)

/-- A text without tabs stays as it is. -/
theorem Text.expandTabsFrom_eq_self {column : Nat} {s : List Char} (h : '\t' ∉ s) :
    expandTabsFrom column s = s := by
  induction s generalizing column with
  | nil => rfl
  | cons c rest ih =>
    obtain ⟨hc, hrest⟩ := not_or.1 (List.mem_cons.not.1 h)
    rw [expandTabsFrom, if_neg (Ne.symm hc), ih hrest]

namespace Operands

/-- The registers that operands name, in the order in which they are written. -/
def registers : {shape : Shape} → Operands shape → List String
  | _, .rrr rd rs rt => [rd, rs, rt]
  | _, .rri rd rs _ => [rd, rs]
  | _, .rr rs rt => [rs, rt]
  | _, .r rd => [rd]

theorem isToken_of_readRegister? {s rest : List Char} {name : String}
    (h : readRegister? s = some (name, rest)) : IsToken name := by
  rw [readRegister?] at h
  split at h
  case _ body _ =>
    split at h
    case _ => cases h
    case _ letters hne =>
      obtain ⟨rfl, -⟩ := Prod.mk.inj (Option.some.inj h)
      refine ⟨body.takeWhile Text.isAsciiAlphanumeric, String.toList_ofList, hne, fun c hc => ?_⟩
      exact List.mem_takeWhile_imp hc
  case _ => cases h

theorem isToken_of_readRegisterComma? {s rest : List Char} {name : String}
    (h : readRegisterComma? s = some (name, rest)) : IsToken name := by
  obtain ⟨⟨name', body⟩, hread, h⟩ := Option.bind_eq_some_iff.1 h
  obtain ⟨rest', -, h⟩ := Option.bind_eq_some_iff.1 h
  cases h
  exact isToken_of_readRegister? hread

theorem eq_of_finish? {α : Type} {a b : α} {s : List Char} (h : finish? a s = some b) : a = b := by
  rw [finish?] at h
  split at h
  case _ => exact Option.some.inj h
  case _ => cases h

/-- The registers of operands that have been read are tokens. -/
theorem isToken_of_read? {shape : Shape} {s : List Char} {ops : Operands shape}
    (h : read? shape s = .ok (some ops)) : ∀ name ∈ ops.registers, IsToken name := by
  cases shape with
  | rrr =>
    obtain ⟨⟨rd, s₁⟩, hrd, h⟩ := Option.bind_eq_some_iff.1 (Except.ok.inj h)
    obtain ⟨⟨rs, s₂⟩, hrs, h⟩ := Option.bind_eq_some_iff.1 h
    obtain ⟨⟨rt, s₃⟩, hrt, h⟩ := Option.bind_eq_some_iff.1 h
    obtain rfl := eq_of_finish? h
    simp only [registers, List.forall_mem_cons]
    exact ⟨isToken_of_readRegisterComma? hrd, isToken_of_readRegisterComma? hrs,
      isToken_of_readRegister? hrt, by simp⟩
  | rri =>
    simp only [read?, readRri?] at h
    split at h
    case _ => cases h
    case _ rd rs immediate rest hhead =>
      obtain ⟨⟨rd', s₁⟩, hrd, hhead⟩ := Option.bind_eq_some_iff.1 hhead
      obtain ⟨⟨rs', s₂⟩, hrs, hhead⟩ := Option.bind_eq_some_iff.1 hhead
      obtain ⟨⟨literal, s₃⟩, -, hhead⟩ := Option.bind_eq_some_iff.1 hhead
      cases hhead
      obtain ⟨n, -, h⟩ := bind_eq_ok.1 h
      obtain rfl := eq_of_finish? (Except.ok.inj h)
      simp only [registers, List.forall_mem_cons]
      exact ⟨isToken_of_readRegisterComma? hrd, isToken_of_readRegisterComma? hrs, by simp⟩
  | rr =>
    obtain ⟨⟨rs, s₁⟩, hrs, h⟩ := Option.bind_eq_some_iff.1 (Except.ok.inj h)
    obtain ⟨⟨rt, s₂⟩, hrt, h⟩ := Option.bind_eq_some_iff.1 h
    obtain rfl := eq_of_finish? h
    simp only [registers, List.forall_mem_cons]
    exact ⟨isToken_of_readRegisterComma? hrs, isToken_of_readRegister? hrt, by simp⟩
  | r =>
    obtain ⟨⟨rd, s₁⟩, hrd, h⟩ := Option.bind_eq_some_iff.1 (Except.ok.inj h)
    obtain rfl := eq_of_finish? h
    exact List.forall_mem_singleton.2 (isToken_of_readRegister? hrd)

theorem isToken_of_parse {shape : Shape} {opcode operands : String} {ops : Operands shape}
    (h : parse shape opcode operands = .ok ops) : ∀ name ∈ ops.registers, IsToken name := by
  rw [parse] at h
  split at h
  case _ => cases h
  case _ => cases h
  case _ ops' hread =>
    cases h
    exact isToken_of_read? hread

/-- A token alone is read as it is. -/
theorem parse_of_isToken {name : String} (h : IsToken name) (opcode : String) :
    parse .r opcode name = .ok (.r name) := by
  have noTab : '\t' ∉ name.toList := h.notMem (by decide) (by decide)
  obtain ⟨letters, hname, hne, hletters⟩ := h
  have tabs : Text.expandTabs name.toList = '$' :: letters :=
    (Text.expandTabsFrom_eq_self noTab).trans hname
  have token : readRegister? ('$' :: letters) = some (name, []) := by
    have skip : Text.skipGap ('$' :: letters) = '$' :: letters :=
      List.dropWhile_cons_of_neg (by decide)
    simp only [readRegister?, skip, List.takeWhile_eq_self_iff.2 hletters,
      List.dropWhile_eq_nil_iff.2 hletters]
    rw [← hname, String.ofList_toList]
  rw [parse, tabs]
  simp only [read?, readR?, token, Option.bind_eq_bind, Option.bind_some]
  rfl

end Operands

end TinyMips
