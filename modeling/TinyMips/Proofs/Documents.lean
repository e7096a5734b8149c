import TinyMips.InitialValues
import TinyMips.Proofs.Check
import TinyMips.Proofs.Nesting

/-!
# Documents of initial values

What a document of initial values should hold, and what is told if it does not. Its tables should
give words only (`InitialValues.IsSound`). Of all that is wrong with it the first is told, in the
order of its entries and with the table of the general registers before that of the accumulators
(`InitialValues.FirstFault`): in words that show the value, unless too many values are in it
(`InitialValues.Fault.Told`). The main statements are that a document is read as its words if there
is nothing wrong with it (`InitialValues.ofDocument_eq_ok_iff`), and that otherwise it is rejected
with what is told (`InitialValues.ofDocument_eq_error_iff`).
-/

namespace TinyMips.InitialValues

/-! ## Specification -/

/-- The entries that a document has in one of its tables; without the table there are none. -/
inductive Entries (document : Toml.Table) (part : String) : Toml.Table → Prop
  /-- there is no such table -/
  | absent (h : document.get? part = none) : Entries document part []
  /-- there is one -/
  | table {entries : Toml.Table} (h : document.get? part = some (.table entries)) :
    Entries document part entries

/-- Whether a value can be given to a register: it is an integer, and a word. -/
def IsInitial (v : Toml.Value) : Prop :=
  ∃ n, v = .integer n ∧ IsWord n

/-- Whether a part of a document is as it should be: a table of words, or not there at all. -/
def IsSound (document : Toml.Table) (part : String) : Prop :=
  ∃ entries, Entries document part entries ∧ ∀ entry ∈ entries, IsInitial entry.2

/-- What is wrong with a value that is given under a name. -/
inductive Faulty (name : String) : Toml.Value → Fault → Prop
  /-- it is no integer -/
  | notInteger {v : Toml.Value} (h : ∀ n, v ≠ .integer n) : Faulty name v (.notInteger name v)
  /-- it is an integer, but no word -/
  | outOfRange {n : Int} (h : ¬IsWord n) : Faulty name (.integer n) (.outOfRange name n)

/-- What is wrong with the first of some entries with which anything is. -/
inductive FirstFaulty : Toml.Table → Fault → Prop
  /-- it is the first entry of all -/
  | here {name : String} {v : Toml.Value} {rest : Toml.Table} {f : Fault} (h : Faulty name v f) :
    FirstFaulty ((name, v) :: rest) f
  /-- it is a later one -/
  | later {name : String} {v : Toml.Value} {rest : Toml.Table} {f : Fault} (h : IsInitial v)
    (hrest : FirstFaulty rest f) : FirstFaulty ((name, v) :: rest) f

/-- What is wrong first in a part of a document. -/
inductive PartFault (document : Toml.Table) (part : String) : Fault → Prop
  /-- it is no table -/
  | notTable {v : Toml.Value} (h : document.get? part = some v)
    (hv : ∀ entries, v ≠ .table entries) : PartFault document part (.notTable part v)
  /-- a value is no word -/
  | entry {entries : Toml.Table} {f : Fault} (h : document.get? part = some (.table entries))
    (hf : FirstFaulty entries f) : PartFault document part f

/-- What is wrong first with the values of a document. -/
inductive FirstFault (document : Toml.Table) : Fault → Prop
  /-- it is in the table of the general registers -/
  | registers {f : Fault} (hf : PartFault document "registers" f) : FirstFault document f
  /-- it is in the table of the accumulators -/
  | special {f : Fault} (h : IsSound document "registers")
    (hf : PartFault document "special" f) : FirstFault document f

/-- The value that is wrong. -/
def Fault.value : Fault → Toml.Value
  | .notTable _ v => v
  | .notInteger _ v => v
  | .outOfRange _ n => .integer n

/-- How a fault is told: in words, unless the value that is wrong has too much in it. -/
inductive Fault.Told (f : Fault) : Error → Prop
  /-- in words -/
  | shown (h : f.value.IsShallow) : Told f (.fault f)
  /-- by the failure to find them -/
  | tooDeep (h : ¬f.value.IsShallow) : Told f (.tooDeep .showing)

variable {document entries : Toml.Table} {part name : String} {v : Toml.Value} {f : Fault}
  {e : Error} {values : List (String × Int)}

/-! ## Values -/

/-- Without overlong integers, a value is blamed as its fault is told. -/
theorem blame_eq_iff {α : Type} (hv : f.value.HoldsWritable) (result : Except Error α) :
    blame f f.value = result ↔ ∃ e, result = .error e ∧ f.Told e := by
  by_cases h : f.value.IsShallow
  · rw [blame, Toml.Value.textFault?_eq_none hv h]
    constructor
    · rintro rfl
      exact ⟨_, rfl, .shown h⟩
    · rintro ⟨e, rfl, _ | deep⟩
      · rfl
      · exact absurd h deep
  · have deep := h
    simp only [Toml.Value.IsShallow, not_forall, Nat.not_le, exists_prop] at deep
    obtain ⟨depth, inner, hinner, hdepth⟩ := deep
    rw [blame, Toml.Value.textFault?_eq_tooDeep hv hinner hdepth]
    constructor
    · rintro rfl
      exact ⟨_, rfl, .tooDeep h⟩
    · rintro ⟨e, rfl, shallow | _⟩
      · exact absurd shallow h
      · rfl

theorem Faulty.value_eq (h : Faulty name v f) : f.value = v := by
  cases h <;> rfl

theorem Faulty.readWord_eq (h : Faulty name v f) : readWord name v = blame f f.value := by
  cases h with
  | notInteger h =>
    cases v with
    | integer n => exact absurd rfl (h n)
    | _ => rfl
  | outOfRange h => exact if_neg h

theorem isInitial_or_faulty (name : String) (v : Toml.Value) :
    IsInitial v ∨ ∃ f, Faulty name v f := by
  obtain ⟨n, rfl⟩ | other := v.integer_or_not
  · by_cases hn : IsWord n
    · exact .inl ⟨n, rfl, hn⟩
    · exact .inr ⟨_, .outOfRange hn⟩
  · exact .inr ⟨_, .notInteger other⟩

theorem readWord_eq_ok_iff {n : Int} : readWord name v = .ok n ↔ v = .integer n ∧ IsWord n := by
  constructor
  · intro h
    obtain ⟨k, rfl, hk⟩ | ⟨f, hf⟩ := isInitial_or_faulty name v
    · have taken : readWord name (.integer k) = .ok k := if_pos hk
      cases taken.symm.trans h
      exact ⟨rfl, hk⟩
    · rw [hf.readWord_eq, blame] at h
      split at h <;> cases h
  · rintro ⟨rfl, hn⟩
    exact if_pos hn

theorem readWord_eq_error_iff (hv : v.HoldsWritable) :
    readWord name v = .error e ↔ ∃ f, Faulty name v f ∧ f.Told e := by
  constructor
  · intro h
    obtain ⟨n, hn⟩ | ⟨f, hf⟩ := isInitial_or_faulty name v
    · rw [readWord_eq_ok_iff.2 hn] at h
      cases h
    · rw [hf.readWord_eq, blame_eq_iff (hf.value_eq ▸ hv)] at h
      obtain ⟨_, ⟨⟩, told⟩ := h
      exact ⟨f, hf, told⟩
  · rintro ⟨f, hf, told⟩
    rw [hf.readWord_eq, blame_eq_iff (hf.value_eq ▸ hv)]
    exact ⟨e, rfl, told⟩

/-! ## Tables -/

/-- The names and words of the entries of a table. -/
def readEntries (entries : Toml.Table) : Except Error (List (String × Int)) :=
  entries.mapM fun (name, v) => do return (name, ← readWord name v)

theorem readEntries_cons (name : String) (v : Toml.Value) (rest : Toml.Table) :
    readEntries ((name, v) :: rest) = do
      let n ← readWord name v
      let values ← readEntries rest
      return (name, n) :: values := by
  rw [readEntries, List.mapM_cons, bind_assoc]
  simp only [pure_bind]
  rfl

/-- The entry that gives a word to a name. -/
def entryOf (value : String × Int) : String × Toml.Value :=
  (value.1, .integer value.2)

theorem holdsWritable_entries (values : List (String × Int))
    (h : ∀ value ∈ values, IsWord value.2) :
    (Toml.Value.table (values.map entryOf)).HoldsWritable :=
  Toml.Value.holdsWritable_table <| List.forall_mem_map.2 fun value hvalue =>
    Toml.Value.holdsWritable_integer (h value hvalue).writable

theorem readEntries_eq_ok_iff :
    readEntries entries = .ok values ↔
      entries = values.map entryOf ∧ ∀ value ∈ values, IsWord value.2 := by
  induction entries generalizing values with
  | nil =>
    constructor
    · rintro ⟨⟩
      exact ⟨rfl, fun _ h => nomatch h⟩
    · rintro ⟨h, -⟩
      rw [List.map_eq_nil_iff.1 h.symm]
      rfl
  | cons entry rest ih =>
    obtain ⟨name, v⟩ := entry
    rw [readEntries_cons]
    constructor
    · intro h
      obtain ⟨n, hn, h⟩ := bind_eq_ok.1 h
      obtain ⟨later, hlater, h⟩ := bind_eq_ok.1 h
      obtain rfl := Except.ok.inj h
      obtain ⟨rfl, hword⟩ := readWord_eq_ok_iff.1 hn
      obtain ⟨rfl, hwords⟩ := ih.1 hlater
      exact ⟨rfl, List.forall_mem_cons.2 ⟨hword, hwords⟩⟩
    · rintro ⟨h, hwords⟩
      obtain ⟨⟨_, n⟩, later, rfl, ⟨⟩, hlater⟩ := List.map_eq_cons_iff.1 h.symm
      obtain ⟨hword, hlater_words⟩ := List.forall_mem_cons.1 hwords
      rw [readWord_eq_ok_iff.2 ⟨rfl, hword⟩, ok_bind, ih.2 ⟨hlater.symm, hlater_words⟩]
      rfl

/-- Entries that give words are those of some names and words. -/
theorem exists_eq_map_entryOf_iff :
    (∃ values : List (String × Int), entries = values.map entryOf ∧
        ∀ value ∈ values, IsWord value.2) ↔
      ∀ entry ∈ entries, IsInitial entry.2 := by
  constructor
  · rintro ⟨values, rfl, hwords⟩
    exact List.forall_mem_map.2 fun value hvalue => ⟨value.2, rfl, hwords value hvalue⟩
  · intro h
    induction entries with
    | nil => exact ⟨[], rfl, fun _ h => nomatch h⟩
    | cons entry rest ih =>
      obtain ⟨name, v⟩ := entry
      obtain ⟨⟨n, rfl, hword⟩, hrest⟩ := List.forall_mem_cons.1 h
      obtain ⟨values, rfl, hwords⟩ := ih hrest
      exact ⟨(name, n) :: values, rfl, List.forall_mem_cons.2 ⟨hword, hwords⟩⟩

theorem readEntries_eq_error_iff (h : ∀ entry ∈ entries, entry.2.HoldsWritable) :
    readEntries entries = .error e ↔ ∃ f, FirstFaulty entries f ∧ f.Told e := by
  induction entries with
  | nil => exact iff_of_false nofun fun ⟨f, hf, _⟩ => nomatch hf
  | cons entry rest ih =>
    obtain ⟨name, v⟩ := entry
    obtain ⟨hv, hrest⟩ := List.forall_mem_cons.1 h
    rw [readEntries_cons, bind_eq_error, readWord_eq_error_iff hv]
    constructor
    · rintro (⟨f, hf, told⟩ | ⟨n, hn, hlater⟩)
      · exact ⟨f, .here hf, told⟩
      · obtain hlater | ⟨_, _, ⟨⟩⟩ := bind_eq_error.1 hlater
        obtain ⟨f, hf, told⟩ := (ih hrest).1 hlater
        exact ⟨f, .later ⟨n, readWord_eq_ok_iff.1 hn⟩ hf, told⟩
    · rintro ⟨f, hf, told⟩
      cases hf with
      | here hf => exact .inl ⟨f, hf, told⟩
      | later hn hf =>
        obtain ⟨n, hn⟩ := hn
        exact .inr ⟨n, readWord_eq_ok_iff.2 hn,
          bind_eq_error.2 (.inl ((ih hrest).2 ⟨f, hf, told⟩))⟩

/-! ## Parts -/

theorem mem_of_get? (h : document.get? part = some v) : (part, v) ∈ document := by
  rw [Toml.Table.get?, Option.map_eq_some_iff] at h
  obtain ⟨⟨name, v⟩, hfind, rfl⟩ := h
  have hname := List.find?_some hfind
  rw [beq_iff_eq] at hname
  exact hname ▸ List.mem_of_find?_eq_some hfind

theorem holdsWritable_of_get? (h : (Toml.Value.table document).HoldsWritable)
    (hv : document.get? part = some v) : v.HoldsWritable :=
  h.of_mem (List.mem_map_of_mem (mem_of_get? hv))

theorem Entries.unique {entries' : Toml.Table} (h : Entries document part entries)
    (h' : Entries document part entries') : entries = entries' := by
  cases h with
  | absent h =>
    cases h' with
    | absent => rfl
    | table h' => cases h.symm.trans h'
  | table h =>
    cases h' with
    | absent h' => cases h.symm.trans h'
    | table h' =>
      cases h.symm.trans h'
      rfl

theorem readPart_of_entries (h : Entries document part entries) :
    readPart part document = readEntries entries := by
  cases h with
  | absent h =>
    rw [readPart, h]
    rfl
  | table h =>
    rw [readPart, h]
    rfl

theorem readPart_of_notTable (h : document.get? part = some v)
    (hv : ∀ entries, v ≠ .table entries) :
    readPart part document = blame (.notTable part v) v := by
  rw [readPart, h]
  cases v with
  | table entries => exact absurd rfl (hv entries)
  | _ => rfl

theorem entries_or_notTable (document : Toml.Table) (part : String) :
    (∃ entries, Entries document part entries) ∨
      ∃ v, document.get? part = some v ∧ ∀ entries, v ≠ .table entries := by
  cases h : document.get? part with
  | none => exact .inl ⟨_, .absent h⟩
  | some v =>
    by_cases hv : ∃ entries, v = .table entries
    · obtain ⟨entries, rfl⟩ := hv
      exact .inl ⟨entries, .table h⟩
    · exact .inr ⟨v, rfl, not_exists.1 hv⟩

theorem readPart_eq_ok_iff :
    readPart part document = .ok values ↔
      Entries document part (values.map entryOf) ∧ ∀ value ∈ values, IsWord value.2 := by
  constructor
  · intro h
    obtain ⟨entries, hentries⟩ | ⟨v, hget, hv⟩ := entries_or_notTable document part
    · rw [readPart_of_entries hentries, readEntries_eq_ok_iff] at h
      exact ⟨h.1 ▸ hentries, h.2⟩
    · rw [readPart_of_notTable hget hv, blame] at h
      split at h <;> cases h
  · rintro ⟨hentries, hwords⟩
    rw [readPart_of_entries hentries, readEntries_eq_ok_iff]
    exact ⟨rfl, hwords⟩

theorem exists_readPart_iff :
    (∃ values, readPart part document = .ok values) ↔ IsSound document part := by
  simp only [readPart_eq_ok_iff, IsSound, ← exists_eq_map_entryOf_iff]
  constructor
  · rintro ⟨values, hentries, hwords⟩
    exact ⟨_, hentries, values, rfl, hwords⟩
  · rintro ⟨_, hentries, values, rfl, hwords⟩
    exact ⟨values, hentries, hwords⟩

theorem readPart_eq_error_iff (h : (Toml.Value.table document).HoldsWritable) :
    readPart part document = .error e ↔ ∃ f, PartFault document part f ∧ f.Told e := by
  obtain ⟨entries, hentries⟩ | ⟨v, hget, hv⟩ := entries_or_notTable document part
  · rw [readPart_of_entries hentries]
    cases hentries with
    | absent hget =>
      refine iff_of_false nofun ?_
      rintro ⟨f, ⟨hget', _⟩ | ⟨hget', _⟩, _⟩ <;> cases hget.symm.trans hget'
    | table hget =>
      have writable : ∀ entry ∈ entries, entry.2.HoldsWritable := fun entry hentry =>
        (holdsWritable_of_get? h hget).of_mem (List.mem_map_of_mem hentry)
      rw [readEntries_eq_error_iff writable]
      constructor
      · rintro ⟨f, hf, told⟩
        exact ⟨f, .entry hget hf, told⟩
      · rintro ⟨f, ⟨hget', hv⟩ | ⟨hget', hf⟩, told⟩
        · exact absurd (Option.some.inj (hget'.symm.trans hget)) (hv entries)
        · cases hget.symm.trans hget'
          exact ⟨f, hf, told⟩
  · have writable : (Fault.notTable part v).value.HoldsWritable := holdsWritable_of_get? h hget
    rw [readPart_of_notTable hget hv]
    constructor
    · intro hblame
      obtain ⟨_, ⟨⟩, told⟩ := (blame_eq_iff writable _).1 hblame
      exact ⟨_, .notTable hget hv, told⟩
    · rintro ⟨f, ⟨hget', _⟩ | ⟨hget', _⟩, told⟩
      · cases hget.symm.trans hget'
        exact (blame_eq_iff writable _).2 ⟨e, rfl, told⟩
      · exact absurd (Option.some.inj (hget.symm.trans hget')) (hv _)

/-! ## Documents -/

theorem ofDocument_eq_ok_iff {values : InitialValues} :
    ofDocument document = .ok values ↔
      readPart "registers" document = .ok values.general ∧
        readPart "special" document = .ok values.accumulators := by
  rw [ofDocument]
  constructor
  · intro h
    obtain ⟨general, hgeneral, h⟩ := bind_eq_ok.1 h
    obtain ⟨accumulators, haccumulators, h⟩ := bind_eq_ok.1 h
    cases h
    exact ⟨hgeneral, haccumulators⟩
  · rintro ⟨hgeneral, haccumulators⟩
    rw [hgeneral, haccumulators]
    rfl

theorem ofDocument_eq_error_iff (h : (Toml.Value.table document).HoldsWritable) :
    ofDocument document = .error e ↔ ∃ f, FirstFault document f ∧ f.Told e := by
  rw [ofDocument, bind_eq_error, readPart_eq_error_iff h]
  constructor
  · rintro (⟨f, hf, told⟩ | ⟨general, hgeneral, hspecial⟩)
    · exact ⟨f, .registers hf, told⟩
    · obtain hspecial | ⟨_, _, ⟨⟩⟩ := bind_eq_error.1 hspecial
      obtain ⟨f, hf, told⟩ := (readPart_eq_error_iff h).1 hspecial
      exact ⟨f, .special (exists_readPart_iff.1 ⟨general, hgeneral⟩) hf, told⟩
  · rintro ⟨f, hf, told⟩
    cases hf with
    | registers hf => exact .inl ⟨f, hf, told⟩
    | special hsound hf =>
      obtain ⟨general, hgeneral⟩ := exists_readPart_iff.2 hsound
      exact .inr ⟨general, hgeneral,
        bind_eq_error.2 (.inl ((readPart_eq_error_iff h).2 ⟨f, hf, told⟩))⟩

end TinyMips.InitialValues
