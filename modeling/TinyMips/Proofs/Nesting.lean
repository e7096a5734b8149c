import Mathlib.Data.List.Basic
import Mathlib.Logic.Basic
import TinyMips.Toml.Value

/-!
# Values within values

How deep the values of a document lie in one another (`Toml.Value.Holds`), and what that means for
showing one: a value can be shown if its integers are short enough and nothing in it lies too deep
(`Toml.Value.textFault?_eq_none`), and with overlong integers out of the way, depth is the only
obstacle (`Toml.Value.textFault?_eq_tooDeep`).
-/

namespace TinyMips

namespace Toml.Value

/-- The values that are directly in a value. -/
def parts : Value → List Value
  | .array items => items
  | .table entries => entries.map Prod.snd
  | _ => []

/-- Whether a value has another in it, and how many values are around that. -/
inductive Holds : Value → Nat → Value → Prop
  /-- the value itself -/
  | self (v : Value) : Holds v 0 v
  /-- what is in one of its parts -/
  | inside {v part inner : Value} {depth : Nat} (hpart : part ∈ v.parts)
    (h : Holds part depth inner) : Holds v (depth + 1) inner

/-- Whether no integer in a value is too long to be written. -/
def HoldsWritable (v : Value) : Prop :=
  ∀ depth n, v.Holds depth (.integer n) → Numeral.Writable n

/-- Whether nothing in a value has more values around it than can be shown. -/
def IsShallow (v : Value) : Prop :=
  ∀ depth inner, v.Holds depth inner → depth ≤ greatestDepth

variable {v part inner : Value} {room depth : Nat}

theorem HoldsWritable.of_mem (h : v.HoldsWritable) (hpart : part ∈ v.parts) :
    part.HoldsWritable :=
  fun _ n hn => h _ n (.inside hpart hn)

theorem HoldsWritable.writable {n : Int} (h : (Value.integer n).HoldsWritable) :
    Numeral.Writable n :=
  h 0 n (.self _)

theorem holdsWritable_integer {n : Int} (hn : Numeral.Writable n) :
    (Value.integer n).HoldsWritable := by
  rintro _ _ (_ | ⟨hpart, _⟩)
  · exact hn
  · cases hpart

theorem holdsWritable_of_parts_eq_nil (hv : ∀ n, v ≠ .integer n) (h : v.parts = []) :
    v.HoldsWritable := by
  rintro _ n (_ | ⟨hpart, _⟩)
  · exact absurd rfl (hv n)
  · exact absurd hpart (h ▸ List.not_mem_nil)

theorem holdsWritable_table {entries : Table} (h : ∀ entry ∈ entries, entry.2.HoldsWritable) :
    (Value.table entries).HoldsWritable := by
  rintro _ n (_ | ⟨hpart, hn⟩)
  obtain ⟨entry, hentry, rfl⟩ := List.mem_map.1 hpart
  exact h entry hentry _ n hn

theorem isShallow_of_parts_eq_nil (h : v.parts = []) : v.IsShallow := by
  rintro _ _ (_ | ⟨hpart, _⟩)
  · exact Nat.zero_le _
  · exact absurd hpart (h ▸ List.not_mem_nil)

/-- An empty table with some tables around it. -/
def nested : Nat → Value
  | 0 => .table []
  | n + 1 => .table [("a", nested n)]

theorem nested_ne_integer (depth : Nat) (n : Int) : nested depth ≠ .integer n := by
  cases depth <;> exact nofun

theorem holds_nested (depth : Nat) : (nested depth).Holds depth (.table []) := by
  induction depth with
  | zero => exact .self _
  | succ depth ih => exact .inside List.mem_cons_self ih

theorem holdsWritable_nested (depth : Nat) : (nested depth).HoldsWritable := by
  induction depth with
  | zero => exact holdsWritable_table fun _ h => nomatch h
  | succ depth ih => exact holdsWritable_table (List.forall_mem_singleton.2 ih)

/-! ## Showing -/

theorem textFault?_integer {n : Int} (hn : Numeral.Writable n) (room : Nat) :
    textFault? room (.integer n) = none := by
  rw [textFault?, if_pos hn]

theorem itemsFault?_succ (room : Nat) (items : List Value) :
    itemsFault? (room + 1) items = items.findSome? (textFault? room) := by
  induction items with
  | nil => rw [itemsFault?, List.findSome?_nil]
  | cons v rest ih =>
    rw [itemsFault?, ih, List.findSome?_cons]
    cases textFault? room v <;> rfl

theorem entriesFault?_succ (room : Nat) (entries : List (String × Value)) :
    entriesFault? (room + 1) entries = (entries.map Prod.snd).findSome? (textFault? room) := by
  induction entries with
  | nil => rw [entriesFault?, List.map_nil, List.findSome?_nil]
  | cons entry rest ih =>
    rw [entriesFault?, ih, List.map_cons, List.findSome?_cons]
    cases textFault? room entry.2 <;> rfl

/-- Where there is room for no more, a value is shown if it has no parts. -/
theorem textFault?_zero (hv : ∀ n, v ≠ .integer n) :
    textFault? 0 v = if v.parts = [] then none else some .tooDeep := by
  cases v with
  | integer n => exact absurd rfl (hv n)
  | array items => cases items <;> rfl
  | table entries => cases entries <;> rfl
  | _ => rfl

/-- Otherwise it is shown if its parts are, with less room. -/
theorem textFault?_succ (hv : ∀ n, v ≠ .integer n) (room : Nat) :
    textFault? (room + 1) v = v.parts.findSome? (textFault? room) := by
  cases v with
  | integer n => exact absurd rfl (hv n)
  | array items => rw [textFault?, itemsFault?_succ, parts]
  | table entries => rw [textFault?, entriesFault?_succ, parts]
  | _ => rfl

theorem integer_or_not (v : Value) : (∃ n, v = .integer n) ∨ ∀ n, v ≠ .integer n := by
  by_cases h : ∃ n, v = .integer n
  · exact .inl h
  · exact .inr (not_exists.1 h)

/-- A value can be shown if there is room for all that it has in it. -/
theorem textFault?_eq_none (hv : v.HoldsWritable)
    (h : ∀ depth inner, v.Holds depth inner → depth ≤ room) : textFault? room v = none := by
  induction room generalizing v with
  | zero =>
    obtain ⟨n, rfl⟩ | other := v.integer_or_not
    · exact textFault?_integer hv.writable 0
    · have empty : v.parts = [] := List.eq_nil_iff_forall_not_mem.2 fun part hpart =>
        absurd (h 1 part (.inside hpart (.self part))) (Nat.not_succ_le_zero 0)
      rw [textFault?_zero other, if_pos empty]
  | succ room ih =>
    obtain ⟨n, rfl⟩ | other := v.integer_or_not
    · exact textFault?_integer hv.writable _
    · rw [textFault?_succ other, List.findSome?_eq_none_iff]
      exact fun part hpart => ih (hv.of_mem hpart) fun depth inner hinner =>
        Nat.le_of_succ_le_succ (h _ inner (.inside hpart hinner))

/-- Without overlong integers, depth is all that can be in the way of showing a value. -/
theorem eq_tooDeep_of_textFault? (hv : v.HoldsWritable) {fault : TextFault}
    (h : textFault? room v = some fault) : fault = .tooDeep := by
  induction room generalizing v with
  | zero =>
    obtain ⟨n, rfl⟩ | other := v.integer_or_not
    · rw [textFault?_integer hv.writable] at h
      cases h
    · rw [textFault?_zero other] at h
      split at h
      case isTrue => cases h
      case isFalse => exact (Option.some.inj h).symm
  | succ room ih =>
    obtain ⟨n, rfl⟩ | other := v.integer_or_not
    · rw [textFault?_integer hv.writable] at h
      cases h
    · rw [textFault?_succ other] at h
      obtain ⟨part, hpart, h⟩ := List.exists_of_findSome?_eq_some h
      exact ih (hv.of_mem hpart) h

/-- A value cannot be shown if something in it lies deeper than there is room. -/
theorem textFault?_eq_tooDeep (hv : v.HoldsWritable) (hinner : v.Holds depth inner)
    (hdepth : room < depth) : textFault? room v = some .tooDeep := by
  have refused : textFault? room v ≠ none := by
    induction room generalizing v depth with
    | zero =>
      cases hinner with
      | self => exact absurd hdepth (Nat.not_lt_zero 0)
      | inside hpart _ =>
        obtain ⟨n, rfl⟩ | other := v.integer_or_not
        · cases hpart
        · rw [textFault?_zero other, if_neg (List.ne_nil_of_mem hpart)]
          exact Option.some_ne_none _
    | succ room ih =>
      cases hinner with
      | self => exact absurd hdepth (Nat.not_lt_zero _)
      | inside hpart hinner =>
        obtain ⟨n, rfl⟩ | other := v.integer_or_not
        · cases hpart
        · rw [textFault?_succ other, ne_eq, List.findSome?_eq_none_iff]
          exact fun all => ih (hv.of_mem hpart) hinner (Nat.lt_of_succ_lt_succ hdepth)
            (all _ hpart)
  obtain ⟨fault, hfault⟩ := Option.ne_none_iff_exists'.1 refused
  rw [hfault, eq_tooDeep_of_textFault? hv hfault]

end Toml.Value

end TinyMips
