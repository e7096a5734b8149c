import Mathlib.Algebra.Group.Int.Defs
import Mathlib.Logic.Basic
import Mathlib.Tactic.ByContra
import TinyMips.Proofs.Perform

/-!
# Batches that break off

The names of a batch are all checked before anything is written, its values are not: each is looked
at when its turn comes, and one that is too long to be logged stops the batch there, with what comes
before it written (`Bank.BreaksOff`). Batches of shorter values are made as a whole or not at all.
The main statement is that a batch breaking off is the one way in which a batch that fails can
change a register (`RegisterFile.failed_and_changed_iff`).
-/

namespace TinyMips

/-- Whether a batch breaks off when the changes `made` have been made: all of its names can be
written, and so can the values of these changes, but the value that comes next is too long. -/
inductive Bank.BreaksOff {size : Nat} (bank : Bank size) :
    (batch made : List (String × Int)) → Prop
  /-- at the value `v` -/
  | intro {made later : List (String × Int)} {name : String} {v : Int}
    (hnames : ∀ change ∈ made ++ (name, v) :: later, ∃ i, bank.target change.1 = .ok i)
    (hmade : ∀ change ∈ made, Numeral.Writable change.2) (hv : ¬Numeral.Writable v) :
    BreaksOff bank (made ++ (name, v) :: later) made

namespace RegisterFile

variable {size : Nat} {bank : Bank size} {batch made : List (String × Int)}
  {writes : List (Fin size × Int)}

/-! ## The names -/

theorem targets_append (a b : List (String × Int)) :
    targets bank (a ++ b) = do
      let first ← targets bank a
      let later ← targets bank b
      return first ++ later :=
  List.mapM_append

/-- The names of a batch are accepted if each of them is. -/
theorem exists_targets_iff (batch : List (String × Int)) :
    (∃ writes, targets bank batch = .ok writes) ↔
      ∀ change ∈ batch, ∃ i, bank.target change.1 = .ok i := by
  induction batch with
  | nil => exact iff_of_true ⟨[], rfl⟩ fun _ h => absurd h List.not_mem_nil
  | cons change rest ih =>
    obtain ⟨name, v⟩ := change
    rw [List.forall_mem_cons, ← ih, targets_cons]
    constructor
    · rintro ⟨writes, h⟩
      obtain ⟨i, hi, h⟩ := bind_eq_ok.1 h
      obtain ⟨later, hlater, -⟩ := bind_eq_ok.1 h
      exact ⟨⟨i, hi⟩, later, hlater⟩
    · rintro ⟨⟨i, hi⟩, later, hlater⟩
      refine ⟨(i, v) :: later, ?_⟩
      rw [hi, ok_bind, hlater, ok_bind]
      rfl

/-- The values of a batch are written as they are given. -/
theorem map_snd_targets (h : targets bank batch = .ok writes) :
    writes.map Prod.snd = batch.map Prod.snd := by
  induction batch generalizing writes with
  | nil =>
    cases h
    rfl
  | cons change rest ih =>
    obtain ⟨name, v⟩ := change
    rw [targets_cons] at h
    obtain ⟨i, -, h⟩ := bind_eq_ok.1 h
    obtain ⟨later, hlater, h⟩ := bind_eq_ok.1 h
    cases h
    exact congrArg (v :: ·) (ih hlater)

theorem forall_writable_targets (h : targets bank batch = .ok writes) :
    (∀ w ∈ writes, Numeral.Writable w.2) ↔ ∀ change ∈ batch, Numeral.Writable change.2 := by
  rw [← List.forall_mem_map (P := Numeral.Writable), map_snd_targets h, List.forall_mem_map]

/-! ## The values -/

/-- Values that can be written do not stop what comes after them. -/
theorem write_append (file : RegisterFile bank) {first : List (Fin size × Int)}
    (hopen : ∀ w ∈ first, bank.isProtected w.1 = false) (h : ∀ w ∈ first, Numeral.Writable w.2)
    (later : List (Fin size × Int)) :
    let start := file.write first
    let rest := start.file.write later
    file.write (first ++ later) = { rest with changes := start.changes ++ rest.changes } := by
  induction first generalizing file with
  | nil => rfl
  | cons w first ih =>
    obtain ⟨i, v⟩ := w
    obtain ⟨hi, hfirst_open⟩ := List.forall_mem_cons.1 hopen
    obtain ⟨hv, hfirst⟩ := List.forall_mem_cons.1 h
    simp only [List.cons_append, file.write_cons hi, if_pos hv,
      ih (file.put i v) hfirst_open hfirst]

/-- Writing is stopped by values that cannot be written, and by nothing else. -/
theorem failure?_write_eq_none_iff (file : RegisterFile bank) {writes : List (Fin size × Int)}
    (hopen : ∀ w ∈ writes, bank.isProtected w.1 = false) :
    (file.write writes).failure? = none ↔ ∀ w ∈ writes, Numeral.Writable w.2 := by
  induction writes generalizing file with
  | nil => exact iff_of_true rfl fun _ h => absurd h List.not_mem_nil
  | cons w rest ih =>
    obtain ⟨i, v⟩ := w
    obtain ⟨hi, hrest⟩ := List.forall_mem_cons.1 hopen
    rw [List.forall_mem_cons, file.write_cons hi]
    by_cases hv : Numeral.Writable v
    · rw [if_pos hv, and_iff_right hv]
      exact ih (file.put i v) hrest
    · rw [if_neg hv]
      exact iff_of_false (by simp) fun h => hv h.1

/-! ## The batch -/

theorem update_of_targets (file : RegisterFile bank) (h : targets bank batch = .ok writes) :
    file.update batch = file.write writes := by
  rw [update, h]

/-- A batch with a name that is not accepted fails and changes nothing. -/
theorem update_of_not_targets (file : RegisterFile bank)
    (h : ¬∃ writes, targets bank batch = .ok writes) :
    (file.update batch).file = file ∧ (file.update batch).failure? ≠ none := by
  cases hwrites : targets bank batch with
  | error e =>
    rw [update, hwrites]
    exact ⟨rfl, Option.some_ne_none e⟩
  | ok writes => exact absurd ⟨writes, hwrites⟩ h

/-- A batch is carried out to its end if all of its names are accepted and all of its values can be
written. -/
theorem failure?_update_eq_none_iff (file : RegisterFile bank) (batch : List (String × Int)) :
    (file.update batch).failure? = none ↔
      ∀ change ∈ batch, (∃ i, bank.target change.1 = .ok i) ∧ Numeral.Writable change.2 := by
  rw [forall₂_and, ← exists_targets_iff]
  by_cases h : ∃ writes, targets bank batch = .ok writes
  · obtain ⟨writes, hwrites⟩ := h
    rw [update_of_targets file hwrites,
      file.failure?_write_eq_none_iff (isProtected_of_mem_targets hwrites),
      forall_writable_targets hwrites, and_iff_right ⟨writes, hwrites⟩]
  · exact iff_of_false (file.update_of_not_targets h).2 fun both => h both.1

/-- A batch whose names are accepted is carried out to its end, or else it breaks off. -/
theorem exists_breaksOff (hnames : ∀ change ∈ batch, ∃ i, bank.target change.1 = .ok i)
    (hvalues : ¬∀ change ∈ batch, Numeral.Writable change.2) :
    ∃ made, bank.BreaksOff batch made := by
  have some_long : (batch.find? fun change => ¬Numeral.Writable change.2).isSome := by
    rw [List.find?_isSome]
    simp only [not_forall, exists_prop] at hvalues
    simpa using hvalues
  obtain ⟨⟨name, v⟩, hfirst⟩ := Option.isSome_iff_exists.1 some_long
  obtain ⟨hv, made, later, rfl, hmade⟩ := List.find?_eq_some_iff_append.1 hfirst
  exact ⟨made, .intro hnames (by simpa using hmade) (by simpa using hv)⟩

/-- A batch that breaks off leaves what the changes before that leave, which are made to the
end. -/
theorem update_of_breaksOff (file : RegisterFile bank) (h : bank.BreaksOff batch made) :
    (file.update batch).file = (file.update made).file ∧
      (file.update batch).failure? = some (.numeral .tooLongToWrite) ∧
      (file.update made).failure? = none := by
  obtain ⟨hnames, hmade, hv⟩ := h
  rename_i later name v
  obtain ⟨hmade_names, hlater_names⟩ := List.forall_mem_append.1 hnames
  obtain ⟨first, hfirst⟩ := (exists_targets_iff made).2 hmade_names
  obtain ⟨rest, hrest⟩ := (exists_targets_iff ((name, v) :: later)).2 hlater_names
  have all : targets bank (made ++ (name, v) :: later) = .ok (first ++ rest) := by
    rw [targets_append, hfirst, ok_bind, hrest]
    rfl
  have first_open := isProtected_of_mem_targets hfirst
  have writable := (forall_writable_targets hfirst).2 hmade
  -- The value that is too long is the first of what is left to write.
  rw [targets_cons] at hrest
  obtain ⟨i, htarget, hrest⟩ := bind_eq_ok.1 hrest
  obtain ⟨tail, -, hrest⟩ := bind_eq_ok.1 hrest
  obtain rfl := Except.ok.inj hrest
  have stopped (file : RegisterFile bank) : file.write ((i, v) :: tail) =
      { file, changes := [], failure? := some (.numeral .tooLongToWrite) } := by
    rw [file.write_cons (isProtected_of_target htarget), if_neg hv]
  rw [update_of_targets file all, update_of_targets file hfirst,
    file.write_append first_open writable]
  refine ⟨?_, ?_, (file.failure?_write_eq_none_iff first_open).2 writable⟩
  · rw [stopped]
  · rw [stopped]

/-- **Batches are all or nothing unless they break off.** A batch of values that can be written
leaves the file as it was if it fails. A batch that fails changes the file exactly if it breaks off
and the changes made before that change the file; it leaves what they leave. -/
theorem failed_and_changed_iff (file : RegisterFile bank) (batch : List (String × Int)) :
    let update := file.update batch
    ((∀ change ∈ batch, Numeral.Writable change.2) → update.failure? ≠ none →
        update.file = file) ∧
      (update.failure? ≠ none ∧ update.file ≠ file ↔
        ∃ made, bank.BreaksOff batch made ∧ (file.update made).file ≠ file) ∧
      ∀ made, bank.BreaksOff batch made → update.file = (file.update made).file ∧
        update.failure? = some (.numeral .tooLongToWrite) ∧
        (file.update made).failure? = none := by
  intro update
  refine ⟨fun hvalues hfailed => ?_, ⟨?_, ?_⟩, fun made h => file.update_of_breaksOff h⟩
  · by_cases hnames : ∃ writes, targets bank batch = .ok writes
    · refine absurd ((file.failure?_update_eq_none_iff batch).2 fun change hchange => ?_) hfailed
      exact ⟨(exists_targets_iff batch).1 hnames change hchange, hvalues change hchange⟩
    · exact (file.update_of_not_targets hnames).1
  · rintro ⟨hfailed, hchanged⟩
    have hnames : ∃ writes, targets bank batch = .ok writes := by
      by_contra hnames
      exact hchanged (file.update_of_not_targets hnames).1
    have each := (exists_targets_iff batch).1 hnames
    have hvalues : ¬∀ change ∈ batch, Numeral.Writable change.2 := fun hvalues =>
      hfailed ((file.failure?_update_eq_none_iff batch).2 fun change hchange =>
        ⟨each change hchange, hvalues change hchange⟩)
    obtain ⟨made, hmade⟩ := exists_breaksOff each hvalues
    exact ⟨made, hmade, (file.update_of_breaksOff hmade).1 ▸ hchanged⟩
  · rintro ⟨made, hmade, hchanged⟩
    obtain ⟨hfile, hfailure, -⟩ := file.update_of_breaksOff hmade
    refine ⟨?_, fun hsame => hchanged (hfile.symm.trans hsame)⟩
    rw [hfailure]
    exact Option.some_ne_none _

/-- A batch whose second name is of a register that cannot be written. -/
theorem failed_and_changed_protected :
    let batch := [("$t0", 1), ("$0", 5)]
    let update := (zero Bank.general).update batch
    (∀ change ∈ batch, Numeral.Writable change.2) ∧ update.failure? ≠ none ∧
      update.file = zero Bank.general := by
  intro batch update
  have writable : ∀ change ∈ batch, Numeral.Writable change.2 := by decide
  have failed : update.failure? ≠ none := by decide +kernel
  exact ⟨writable, failed, ((zero Bank.general).failed_and_changed_iff batch).1 writable failed⟩

/-- A batch whose second value cannot be written has been made in part when it fails. -/
theorem changed_by_overlong_value :
    let update := (zero Bank.general).update [("$t0", 1), ("$t1", 10 ^ Numeral.digitLimit)]
    update.failure? ≠ none ∧ (zero Bank.general).value 8 = 0 ∧ update.file.value 8 = 1 := by
  have overlong : ¬Numeral.Writable (10 ^ Numeral.digitLimit) := by
    have size : ∀ n : Nat, ((10 : Int) ^ n).natAbs = Nat.pow 10 n := Int.natAbs_pow 10
    rw [Numeral.writable_iff, size]
    exact Nat.lt_irrefl _
  have t0 : Bank.general.target "$t0" = .ok 8 := rfl
  have t1 : Bank.general.target "$t1" = .ok 9 := rfl
  have names : ∀ change ∈ [("$t0", 1)] ++ [("$t1", (10 : Int) ^ Numeral.digitLimit)],
      ∃ i, Bank.general.target change.1 = .ok i :=
    List.forall_mem_cons.2 ⟨⟨8, t0⟩, List.forall_mem_singleton.2 ⟨9, t1⟩⟩
  have first : ∀ change ∈ [("$t0", (1 : Int))], Numeral.Writable change.2 :=
    List.forall_mem_singleton.2 (by decide)
  obtain ⟨file, failure, -⟩ := (zero Bank.general).update_of_breaksOff (.intro names first overlong)
  refine ⟨fun h => ?_, value_zero 8, ?_⟩
  · cases failure.symm.trans h
  · have made : ((zero Bank.general).update [("$t0", 1)]).file.value 8 = 1 := by decide +kernel
    exact (congrArg (·.value 8) file).trans made

end RegisterFile

end TinyMips
