import Mathlib.Data.List.Basic
import TinyMips.Proofs.Batches
import TinyMips.Proofs.RegisterInvariant

/-!
# Batches in order

A batch of changes comes to the same as writing its registers one after the other. What that is, is
said step by step (`RegisterFile.Makes`): a change is the write of a register by its name, and is
told with the proper name of the register and the value that it held just before. So a register that
a batch names twice, by two of its spellings, is told twice, and the last change counts
(`Bank.lastFor?`). A batch with a name that cannot be written is refused for the first such name
(`Bank.FirstRefused`). The main statement is that there is nothing else a batch of short values can
come to (`RegisterFile.update_in_order`).
-/

namespace TinyMips

/-! ## Names -/

namespace Bank

variable {size : Nat} {bank : Bank size} {name : String}

/-- Whether a name cannot be written, and the fault that it is refused for. -/
inductive Refuses (bank : Bank size) : String → Fault → Prop
  /-- it stands for no register -/
  | unknown {name : String} (h : bank.find name = .ok none) :
    Refuses bank name (.unknownRegister name)
  /-- it stands for a register that is protected -/
  | isProtected {name : String} {i : Fin size} (h : bank.find name = .ok (some i))
    (hi : bank.isProtected i = true) : Refuses bank name (.protectedRegister (bank.name i))

/-- Whether a fault is that of the first of some names that cannot be written. -/
inductive FirstRefused (bank : Bank size) : List String → Fault → Prop
  /-- the first name cannot be written -/
  | here {name : String} {rest : List String} {f : Fault} (h : bank.Refuses name f) :
    FirstRefused bank (name :: rest) f
  /-- the first name can be written -/
  | later {name : String} {rest : List String} {f : Fault} (h : ∀ f, ¬bank.Refuses name f)
    (hrest : FirstRefused bank rest f) : FirstRefused bank (name :: rest) f

theorem canonical_of_find {i : Fin size} (h : bank.find name = .ok (some i)) :
    bank.canonical name = .ok (bank.name i) := by
  rw [canonical, h]
  rfl

/-- A name has a proper name if and only if it can be looked up. -/
theorem exists_canonical_iff :
    (∃ proper, bank.canonical name = .ok proper) ↔ ∃ i?, bank.find name = .ok i? := by
  rw [canonical]
  cases bank.find name with
  | error e => simp
  | ok i? => cases i? <;> simp [pure, Except.pure]

/-- A name can be written if it stands for a register that is not protected. -/
theorem target_eq_ok_iff {i : Fin size} :
    bank.target name = .ok i ↔ bank.find name = .ok (some i) ∧ bank.isProtected i = false := by
  constructor
  · exact fun h => ⟨Machine.find_of_target h, RegisterFile.isProtected_of_target h⟩
  · rintro ⟨hfind, hi⟩
    rw [target, source_of_find hfind, ok_bind, hi]
    rfl

theorem refuses_iff {f : Fault} : bank.Refuses name f ↔ bank.target name = .error (.fault f) := by
  constructor
  · rintro (h | ⟨h, hi⟩)
    · rw [target, source, h]
      rfl
    · rw [target, source_of_find h, ok_bind, if_pos hi]
  · rw [target, source]
    intro h
    split at h
    case _ => cases h
    case _ hfind =>
      cases h
      exact .unknown hfind
    case _ i hfind =>
      rw [ok_bind] at h
      split at h
      case _ hi =>
        cases h
        exact .isProtected hfind hi
      case _ => cases h

/-- A name that can be looked up is one that can be written or one that is refused. -/
theorem target_cases (h : ∃ i?, bank.find name = .ok i?) :
    (∃ i, bank.target name = .ok i) ∨ ∃ f, bank.Refuses name f := by
  obtain ⟨_ | i, hfind⟩ := h
  · exact .inr ⟨_, .unknown hfind⟩
  · cases hi : bank.isProtected i with
    | false => exact .inl ⟨i, target_eq_ok_iff.2 ⟨hfind, hi⟩⟩
    | true => exact .inr ⟨_, .isProtected hfind hi⟩

theorem not_refuses_of_target {i : Fin size} (h : bank.target name = .ok i) (f : Fault) :
    ¬bank.Refuses name f := by
  rw [refuses_iff, h]
  exact nofun

theorem exists_firstRefused_iff {names : List String} :
    (∃ f, bank.FirstRefused names f) ↔ ∃ name ∈ names, ∃ f, bank.Refuses name f := by
  constructor
  · rintro ⟨f, h⟩
    induction h with
    | here h => exact ⟨_, List.mem_cons_self, _, h⟩
    | later _ _ ih =>
      obtain ⟨name, hname, hrefused⟩ := ih
      exact ⟨name, List.mem_cons_of_mem _ hname, hrefused⟩
  · rintro ⟨name, hname, f, h⟩
    induction names with
    | nil => cases hname
    | cons first rest ih =>
      by_cases hfirst : ∃ f, bank.Refuses first f
      · obtain ⟨f, hf⟩ := hfirst
        exact ⟨f, .here hf⟩
      · rcases List.mem_cons.1 hname with rfl | hrest
        · exact absurd ⟨f, h⟩ hfirst
        · obtain ⟨f, hf⟩ := ih hrest
          exact ⟨f, .later (not_exists.1 hfirst) hf⟩

/-- The last of some entries for a register, under whatever name it is entered. -/
def lastFor? {α : Type} (bank : Bank size) (entries : List (String × α)) (i : Fin size) :
    Option α :=
  (entries.filter fun entry => bank.find entry.1 = .ok (some i)).getLast?.map Prod.snd

theorem lastFor?_cons {α : Type} (bank : Bank size) (name : String) (a : α)
    (rest : List (String × α)) (i : Fin size) :
    bank.lastFor? ((name, a) :: rest) i =
      (bank.lastFor? rest i).or (if bank.find name = .ok (some i) then some a else none) := by
  rw [lastFor?, lastFor?, List.filter_cons]
  by_cases h : bank.find name = .ok (some i)
  · simp only [h, decide_true, ↓reduceIte, List.getLast?_cons]
    cases (rest.filter fun entry => bank.find entry.1 = .ok (some i)).getLast? <;> rfl
  · simp [h]

end Bank

/-! ## Writes in a row -/

namespace RegisterFile

variable {size : Nat} {bank : Bank size} {file last : RegisterFile bank}
  {batch : List (String × Int)} {changes : List Change}

/-- What a batch comes to if its registers are written by name, one after the other: the changes,
each with the proper name of its register and with the value that the register held when its turn
came, and the file that is left. -/
inductive Makes :
    RegisterFile bank → List (String × Int) → List Change → RegisterFile bank → Prop
  /-- nothing is written -/
  | nil {file : RegisterFile bank} : Makes file [] [] file
  /-- one register is written, and then the others -/
  | cons {file next last : RegisterFile bank} {name proper : String} {old v : Int}
    {rest : List (String × Int)} {changes : List Change} (hset : file.set name v = .ok next)
    (hproper : bank.canonical name = .ok proper) (hold : file.get name = .ok old)
    (hrest : Makes next rest changes last) :
    Makes file ((name, v) :: rest) ({ register := proper, old, new := v } :: changes) last

theorem get_of_find {name : String} {i : Fin size} (h : bank.find name = .ok (some i))
    (file : RegisterFile bank) : file.get name = .ok (file.value i) := by
  rw [get, Bank.source_of_find h]
  rfl

theorem set_of_target {name : String} {v : Int} {i : Fin size} (h : bank.target name = .ok i)
    (hv : Numeral.Writable v) (file : RegisterFile bank) :
    file.set name v = .ok (file.put i v) := by
  rw [set, h, ok_bind, if_pos hv]

/-- Writing a register puts the value where the name stands for, and nowhere else. -/
theorem value_of_set {name : String} {v : Int} {next : RegisterFile bank}
    (h : file.set name v = .ok next) (i : Fin size) :
    next.value i = if bank.find name = .ok (some i) then v else file.value i := by
  obtain ⟨j, hj, h⟩ := bind_eq_ok.1 h
  split at h
  case isFalse => cases h
  case isTrue =>
    cases h
    have found := (Bank.target_eq_ok_iff.1 hj).1
    by_cases hi : bank.find name = .ok (some i)
    · obtain rfl := Option.some.inj (Except.ok.inj (found.symm.trans hi))
      rw [if_pos hi, value_put_self]
    · have other : j ≠ i := by
        rintro rfl
        exact hi found
      rw [if_neg hi, value_put_of_ne _ other]

namespace Makes

theorem length_changes (h : file.Makes batch changes last) : changes.length = batch.length := by
  induction h with
  | nil => rfl
  | cons _ _ _ _ ih => exact congrArg (· + 1) ih

/-- The last change of a register counts. -/
theorem value_eq (h : file.Makes batch changes last) (i : Fin size) :
    last.value i = (bank.lastFor? batch i).getD (file.value i) := by
  induction h with
  | nil => rfl
  | @cons file next last name proper old v rest changes hset _ _ _ ih =>
    rw [ih, Bank.lastFor?_cons, value_of_set hset]
    cases bank.lastFor? rest i with
    | some w => rfl
    | none => split <;> rfl

end Makes

/-- Writes that are looked up beforehand come to the same as writes by name. -/
theorem makes_write {writes : List (Fin size × Int)} (h : targets bank batch = .ok writes)
    (hvalues : ∀ change ∈ batch, Numeral.Writable change.2) (file : RegisterFile bank) :
    file.Makes batch (file.write writes).changes (file.write writes).file := by
  induction batch generalizing file writes with
  | nil =>
    cases h
    exact .nil
  | cons change rest ih =>
    obtain ⟨name, v⟩ := change
    obtain ⟨hv, hrest⟩ := List.forall_mem_cons.1 hvalues
    rw [targets_cons] at h
    obtain ⟨i, hi, h⟩ := bind_eq_ok.1 h
    obtain ⟨later, hlater, h⟩ := bind_eq_ok.1 h
    obtain rfl := Except.ok.inj h
    obtain ⟨found, hopen⟩ := Bank.target_eq_ok_iff.1 hi
    rw [file.write_cons hopen, if_pos hv]
    exact .cons (set_of_target hi hv file) (Bank.canonical_of_find found) (get_of_find found file)
      (ih hlater hrest (file.put i v))

/-- Looking names up fails for the first that cannot be written. -/
theorem targets_eq_error_iff (hnames : ∀ change ∈ batch, ∃ i?, bank.find change.1 = .ok i?)
    {e : Failure} :
    targets bank batch = .error e ↔
      ∃ f, e = .fault f ∧ bank.FirstRefused (batch.map Prod.fst) f := by
  induction batch with
  | nil => exact iff_of_false nofun fun ⟨f, _, h⟩ => nomatch h
  | cons change rest ih =>
    obtain ⟨name, v⟩ := change
    obtain ⟨hname, hrest⟩ := List.forall_mem_cons.1 hnames
    rw [targets_cons, List.map_cons]
    rcases Bank.target_cases hname with ⟨i, hi⟩ | ⟨g, hg⟩
    · have accepted := Bank.not_refuses_of_target hi
      rw [hi, ok_bind, bind_eq_error, ih hrest]
      constructor
      · rintro (⟨f, rfl, hf⟩ | ⟨writes, -, h⟩)
        · exact ⟨f, rfl, .later accepted hf⟩
        · cases h
      · rintro ⟨f, rfl, hf⟩
        cases hf with
        | here hf => exact absurd hf (accepted f)
        | later _ hf => exact .inl ⟨f, rfl, hf⟩
    · have refused := Bank.refuses_iff.1 hg
      rw [refused, error_bind]
      constructor
      · rintro ⟨⟩
        exact ⟨g, rfl, .here hg⟩
      · rintro ⟨f, rfl, hf⟩
        cases hf with
        | here hf =>
          obtain ⟨⟩ := refused.symm.trans (Bank.refuses_iff.1 hf)
          rfl
        | later accepted _ => exact absurd hg (accepted g)

/-! ## The batch -/

/-- A batch whose values can be written fails for the first name that cannot be. -/
theorem failure?_update_eq_some_iff (file : RegisterFile bank)
    (hvalues : ∀ change ∈ batch, Numeral.Writable change.2)
    (hnames : ∀ change ∈ batch, ∃ proper, bank.canonical change.1 = .ok proper) (e : Failure) :
    (file.update batch).failure? = some e ↔
      ∃ f, e = .fault f ∧ bank.FirstRefused (batch.map Prod.fst) f := by
  have found : ∀ change ∈ batch, ∃ i?, bank.find change.1 = .ok i? := fun change hchange =>
    Bank.exists_canonical_iff.1 (hnames change hchange)
  rw [← targets_eq_error_iff found]
  cases h : targets bank batch with
  | error e' => simp [update, h]
  | ok writes =>
    have done := (file.failure?_write_eq_none_iff (isProtected_of_mem_targets h)).2
      ((forall_writable_targets h).2 hvalues)
    simp [update_of_targets file h, done]

/-- A batch that does not fail comes to what its writes come to in a row. -/
theorem makes_update (file : RegisterFile bank) (done : (file.update batch).failure? = none) :
    file.Makes batch (file.update batch).changes (file.update batch).file := by
  have accepted := (file.failure?_update_eq_none_iff batch).1 done
  obtain ⟨writes, hwrites⟩ := (exists_targets_iff batch).2 fun change hchange =>
    (accepted change hchange).1
  rw [update_of_targets file hwrites]
  exact makes_write hwrites (fun change hchange => (accepted change hchange).2) file

/-- **A batch is its writes in order.** Let the values of a batch be short enough to be written, and
its names such as can be looked up. The batch fails exactly if one of its names cannot be written,
and then for the first such name. Otherwise it comes to what its writes come to one after the other:
each is told with the proper name of its register and the value that this held just before. A
register then holds the last value for it, by whatever name, or else what it held before; and the
registers are listed in the same order. -/
theorem update_in_order (file : RegisterFile bank) (batch : List (String × Int))
    (hvalues : ∀ change ∈ batch, Numeral.Writable change.2)
    (hnames : ∀ change ∈ batch, ∃ proper, bank.canonical change.1 = .ok proper) :
    let update := file.update batch
    (update.failure? ≠ none ↔ ∃ change ∈ batch, ∃ f, bank.Refuses change.1 f) ∧
      (∀ e, update.failure? = some e ↔
        ∃ f, e = .fault f ∧ bank.FirstRefused (batch.map Prod.fst) f) ∧
      (update.failure? = none →
        file.Makes batch update.changes update.file ∧
          update.changes.length = batch.length ∧
          (∀ name i, bank.find name = .ok (some i) →
            update.file.get name = .ok ((bank.lastFor? batch i).getD (file.value i))) ∧
          update.file.toList.map Prod.fst = file.toList.map Prod.fst) := by
  intro update
  have first := file.failure?_update_eq_some_iff hvalues hnames
  refine ⟨?_, first, fun done => ?_⟩
  · calc update.failure? ≠ none
        ↔ ∃ e, update.failure? = some e := Option.ne_none_iff_exists'
      _ ↔ ∃ f, bank.FirstRefused (batch.map Prod.fst) f := by
          simp only [update, first]
          exact ⟨fun ⟨_, f, _, h⟩ => ⟨f, h⟩, fun ⟨f, h⟩ => ⟨_, f, rfl, h⟩⟩
      _ ↔ ∃ change ∈ batch, ∃ f, bank.Refuses change.1 f := by
          rw [Bank.exists_firstRefused_iff]
          simp
  · have makes := file.makes_update done
    refine ⟨makes, makes.length_changes, fun name i hname => ?_, ?_⟩
    · rw [get_of_find hname, makes.value_eq]
    · rw [map_fst_toList, map_fst_toList]

/-- A batch that names one register three times: it is told three times, each time with the value
before, and the last value counts. -/
theorem update_in_order_aliases :
    let file := zero Bank.general
    let batch := [("$8", 1), ("$t1", 5), ("$t0", 2), ("$08", 3)]
    (∀ change ∈ batch, Numeral.Writable change.2) ∧
      (∀ change ∈ batch, ∃ proper, Bank.general.canonical change.1 = .ok proper) ∧
      (file.update batch).failure? = none ∧
      file.Makes batch
        [{ register := "$t0", old := 0, new := 1 }, { register := "$t1", old := 0, new := 5 },
          { register := "$t0", old := 1, new := 2 }, { register := "$t0", old := 2, new := 3 }]
        (file.update batch).file ∧
      (file.update batch).file.get "$008" = .ok 3 := by
  intro file batch
  have writable : ∀ change ∈ batch, Numeral.Writable change.2 := by decide
  have named : ∀ change ∈ batch, ∃ proper, Bank.general.canonical change.1 = .ok proper := by
    simp only [batch, List.forall_mem_cons]
    exact ⟨⟨"$t0", rfl⟩, ⟨"$t1", rfl⟩, ⟨"$t0", rfl⟩, ⟨"$t0", rfl⟩, fun _ h => nomatch h⟩
  have done : (file.update batch).failure? = none := by decide +kernel
  obtain ⟨-, -, order⟩ := update_in_order file batch writable named
  obtain ⟨makes, -, last, -⟩ := order done
  exact ⟨writable, named, done, makes, last "$008" 8 rfl⟩

end RegisterFile

end TinyMips
