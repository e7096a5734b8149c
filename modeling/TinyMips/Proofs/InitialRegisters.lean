import TinyMips.Proofs.BatchOrder
import TinyMips.Proofs.Documents
import TinyMips.Proofs.ExitCode

/-!
# Registers before a run

What a document of initial values makes of the registers. It is checked in three passes: the values
of the table `registers` and those of the table `special`, then the names of the first, then those
of the second. So a value that is no word is told before any name that cannot be written, and of
several such values or names the first is told (`InitialValues.Rejects`). A document that passes
gives each register the last value that it has for it, under whatever name. The main statement is
that a document passes if and only if it should, and that it is rejected for nothing else
(`Machine.startWith_cases`); what is told of a value with too many values in it is that it is too
deep (`Machine.startWith_deep`).
-/

namespace TinyMips

/-- Why a document of initial values is rejected. -/
inductive Rejection where
  /-- for one of its values -/
  | values (e : InitialValues.Error)
  /-- for one of its names -/
  | names (e : Failure)

/-- The end to which a rejection brings the program. -/
def Rejection.verdict : Rejection → Verdict
  | .values e => .ofInitialValues e
  | .names e => .ofFailure e

/-- Starts the machine with the values of a document. -/
def Machine.startWith (document : Toml.Table) : Run Rejection Unit :=
  match InitialValues.ofDocument document with
  | .error e => .fail (.values e)
  | .ok values => (start values).mapError .names

namespace InitialValues

/-! ## Specification -/

/-- Why the first name of a document cannot be written that cannot be. -/
inductive FirstName (document : Toml.Table) : TinyMips.Fault → Prop
  /-- it is in the table of the general registers -/
  | registers {general : Toml.Table} {f : TinyMips.Fault}
    (hgeneral : Entries document "registers" general)
    (hf : Bank.general.FirstRefused (general.map Prod.fst) f) : FirstName document f
  /-- it is in the table of the accumulators -/
  | special {general special : Toml.Table} {f : TinyMips.Fault}
    (hgeneral : Entries document "registers" general)
    (h : ∀ f, ¬Bank.general.FirstRefused (general.map Prod.fst) f)
    (hspecial : Entries document "special" special)
    (hf : Bank.accumulators.FirstRefused (special.map Prod.fst) f) : FirstName document f

/-- Why a document is rejected. -/
inductive Rejects (document : Toml.Table) : Rejection → Prop
  /-- a value is not what it should be -/
  | values {f : Fault} {e : Error} (h : FirstFault document f) (he : f.Told e) :
    Rejects document (.values e)
  /-- all values are, but a name is not -/
  | names {f : TinyMips.Fault} (hregisters : IsSound document "registers")
    (hspecial : IsSound document "special") (h : FirstName document f) :
    Rejects document (.names (.fault f))

/-- Whether a document gives words to registers that can be written, and nothing else. -/
structure IsAccepted (document : Toml.Table) : Prop where
  /-- to general registers other than the first -/
  registers : ∃ general, Entries document "registers" general ∧
    ∀ entry ∈ general, IsInitial entry.2 ∧ ∃ i, Bank.general.find entry.1 = .ok (some i) ∧ i ≠ 0
  /-- to accumulators, by their names -/
  special : ∃ special, Entries document "special" special ∧
    ∀ entry ∈ special, IsInitial entry.2 ∧ (entry.1 = "hi" ∨ entry.1 = "lo")

end InitialValues

/-! ## The machine -/

theorem Bank.lastFor?_map {size : Nat} (bank : Bank size) {α β : Type} (g : α → β)
    (entries : List (String × α)) (i : Fin size) :
    bank.lastFor? (entries.map fun entry => (entry.1, g entry.2)) i =
      (bank.lastFor? entries i).map g := by
  induction entries with
  | nil => rfl
  | cons entry rest ih =>
    rw [List.map_cons, lastFor?_cons, lastFor?_cons, ih]
    cases bank.lastFor? rest i with
    | some a => rfl
    | none => split <;> rfl

/-- A general register can be written by each of its names, unless it is the first. -/
theorem Bank.exists_target_general_iff {name : String} :
    (∃ i, Bank.general.target name = .ok i) ↔
      ∃ i, Bank.general.find name = .ok (some i) ∧ i ≠ 0 := by
  simp only [Bank.target_eq_ok_iff, Bank.general, decide_eq_false_iff_not, ne_eq]

/-- An accumulator can be written by its one name. -/
theorem Bank.exists_target_accumulators_iff {name : String} :
    (∃ i, Bank.accumulators.target name = .ok i) ↔ name = "hi" ∨ name = "lo" := by
  constructor
  · rintro ⟨i, hi⟩
    have named : Bank.accumulators.named? name = some i :=
      Except.ok.inj (Bank.target_eq_ok_iff.1 hi).1
    have spelled := List.find?_some (p := (Bank.accumulators.name · == name)) named
    rw [← eq_of_beq spelled]
    match i with
    | 0 => exact .inl rfl
    | 1 => exact .inr rfl
  · rintro (rfl | rfl)
    · exact ⟨0, rfl⟩
    · exact ⟨1, rfl⟩

theorem canonical_accumulators (name : String) :
    ∃ proper, Bank.accumulators.canonical name = .ok proper :=
  Bank.exists_canonical_iff.2 ⟨_, rfl⟩

namespace Machine

open InitialValues

theorem result_start_eq_ok_iff {values : InitialValues} :
    (start values).result = .ok () ↔
      (zero.general.update values.general).failure? = none ∧
        (zero.accumulators.update values.accumulators).failure? = none := by
  rw [start]
  cases hgeneral : (zero.general.update values.general).failure? with
  | some e => simp
  | none =>
    cases haccumulators : (zero.accumulators.update values.accumulators).failure? <;>
      simp [haccumulators]

theorem result_start_eq_error_iff {values : InitialValues} {e : Failure} :
    (start values).result = .error e ↔
      (zero.general.update values.general).failure? = some e ∨
        (zero.general.update values.general).failure? = none ∧
          (zero.accumulators.update values.accumulators).failure? = some e := by
  rw [start]
  cases hgeneral : (zero.general.update values.general).failure? with
  | some e => simp
  | none =>
    cases haccumulators : (zero.accumulators.update values.accumulators).failure? <;>
      simp [haccumulators]

theorem machine_start {values : InitialValues} (h : (start values).result = .ok ()) :
    (start values).machine =
      ⟨(zero.general.update values.general).file,
        (zero.accumulators.update values.accumulators).file⟩ := by
  obtain ⟨hgeneral, haccumulators⟩ := result_start_eq_ok_iff.1 h
  simp only [start, hgeneral, haccumulators]

/-- The machine starts with just the documents that are accepted. -/
theorem exists_start_iff {document : Toml.Table} :
    (∃ values, ofDocument document = .ok values ∧ (start values).result = .ok ()) ↔
      IsAccepted document := by
  simp only [ofDocument_eq_ok_iff, result_start_eq_ok_iff, readPart_eq_ok_iff,
    RegisterFile.failure?_update_eq_none_iff, Bank.exists_target_general_iff,
    Bank.exists_target_accumulators_iff]
  constructor
  · rintro ⟨values, ⟨⟨hgeneral, hwords⟩, haccumulators, hwords'⟩, named, named'⟩
    constructor
    · refine ⟨_, hgeneral, List.forall_mem_map.2 fun value hvalue => ?_⟩
      exact ⟨⟨value.2, rfl, hwords value hvalue⟩, (named value hvalue).1⟩
    · refine ⟨_, haccumulators, List.forall_mem_map.2 fun value hvalue => ?_⟩
      exact ⟨⟨value.2, rfl, hwords' value hvalue⟩, (named' value hvalue).1⟩
  · rintro ⟨⟨general, hgeneral, registers⟩, special, hspecial, accumulators⟩
    obtain ⟨words, rfl, hwords⟩ := exists_eq_map_entryOf_iff.2 fun entry h => (registers entry h).1
    obtain ⟨words', rfl, hwords'⟩ :=
      exists_eq_map_entryOf_iff.2 fun entry h => (accumulators entry h).1
    refine ⟨⟨words, words'⟩, ⟨⟨hgeneral, hwords⟩, hspecial, hwords'⟩, fun value hvalue => ?_,
      fun value hvalue => ?_⟩
    · exact ⟨(List.forall_mem_map.1 registers value hvalue).2, (hwords value hvalue).writable⟩
    · exact ⟨(List.forall_mem_map.1 accumulators value hvalue).2, (hwords' value hvalue).writable⟩

/-- The machine is refused for just the first name that cannot be written. -/
theorem result_start_eq_error_iff_firstName {document : Toml.Table} {values : InitialValues}
    (hvalues : ofDocument document = .ok values)
    (hnames : ∀ entries, Entries document "registers" entries →
      ∀ entry ∈ entries, ∃ proper, Bank.general.canonical entry.1 = .ok proper) {e : Failure} :
    (start values).result = .error e ↔ ∃ f, e = .fault f ∧ FirstName document f := by
  obtain ⟨general, accumulators⟩ := values
  obtain ⟨hgeneral, haccumulators⟩ := ofDocument_eq_ok_iff.1 hvalues
  obtain ⟨hgeneral, hwords⟩ := readPart_eq_ok_iff.1 hgeneral
  obtain ⟨haccumulators, hwords'⟩ := readPart_eq_ok_iff.1 haccumulators
  -- The names of the entries are those under which their words are written.
  have same : ∀ values : List (String × Int),
      (values.map entryOf).map Prod.fst = values.map Prod.fst := fun values => by
    rw [List.map_map]
    rfl
  have first := zero.general.failure?_update_eq_some_iff (fun value h => (hwords value h).writable)
    fun value h => hnames _ hgeneral (entryOf value) (List.mem_map_of_mem h)
  have later := zero.accumulators.failure?_update_eq_some_iff
    (fun value h => (hwords' value h).writable) fun value _ => canonical_accumulators value.1
  rw [result_start_eq_error_iff, first, later, Option.eq_none_iff_forall_ne_some]
  simp only [ne_eq, first]
  constructor
  · rintro (⟨f, rfl, hf⟩ | ⟨accepted, f, rfl, hf⟩)
    · exact ⟨f, rfl, .registers hgeneral (same general ▸ hf)⟩
    · exact ⟨f, rfl, .special hgeneral (fun f hf => accepted _ ⟨f, rfl, same general ▸ hf⟩)
        haccumulators (same accumulators ▸ hf)⟩
  · rintro ⟨f, rfl, hf⟩
    cases hf with
    | registers h hf =>
      obtain rfl := h.unique hgeneral
      exact .inl ⟨f, rfl, same general ▸ hf⟩
    | special h accepted h' hf =>
      obtain rfl := h.unique hgeneral
      obtain rfl := h'.unique haccumulators
      refine .inr ⟨?_, f, rfl, same accumulators ▸ hf⟩
      rintro _ ⟨f, -, hf⟩
      exact accepted f ((same general).symm ▸ hf)

/-- What registers hold if a batch of words is made on zeros. -/
theorem lastFor?_update {size : Nat} {bank : Bank size} {values : List (String × Int)}
    (done : ((RegisterFile.zero bank).update values).failure? = none) (i : Fin size) :
    (bank.lastFor? (values.map entryOf) i).getD (.integer 0) =
      .integer (((RegisterFile.zero bank).update values).file.value i) := by
  have last := ((RegisterFile.zero bank).makes_update done).value_eq i
  rw [RegisterFile.value_zero] at last
  rw [last, show values.map entryOf = values.map fun entry => (entry.1, .integer entry.2) from rfl,
    Bank.lastFor?_map]
  cases bank.lastFor? values i <;> rfl

/-- A file that holds a document starts the machine with it. -/
theorem loadFile_of_document {disk : Disk} {path : String} {text : List Char}
    {document : Toml.Table} (hread : disk.readText path = .ok text)
    (hdocument : Toml.read (Text.unifyBreaks text) = .ok document) :
    Program.loadFile disk path = (startWith document).mapError Rejection.verdict := by
  have values : InitialValues.ofText text = ofDocument document := by
    rw [InitialValues.ofText, hdocument]
  rw [startWith]
  cases h : ofDocument document with
  | error e =>
    rw [Program.loadFile_of_error hread (values.trans h)]
    rfl
  | ok words =>
    rw [Program.loadFile_of_values hread (values.trans h)]
    cases hstart : (start words).result <;>
      simp [Run.mapError, hstart, Except.mapError, Rejection.verdict]

theorem startWith_of_error {document : Toml.Table} {e : Error}
    (h : ofDocument document = .error e) : startWith document = .fail (.values e) := by
  rw [startWith, h]

theorem startWith_of_ok {document : Toml.Table} {values : InitialValues}
    (h : ofDocument document = .ok values) :
    startWith document = (start values).mapError .names := by
  rw [startWith, h]

theorem result_startWith_eq_ok_iff {document : Toml.Table} :
    (startWith document).result = .ok () ↔
      ∃ values, ofDocument document = .ok values ∧ (start values).result = .ok () := by
  cases h : ofDocument document with
  | error e => simp [startWith_of_error h, Run.fail]
  | ok values => cases hstart : (start values).result <;>
      simp [startWith_of_ok h, Run.mapError, hstart, Except.mapError]

theorem result_startWith_eq_error_iff {document : Toml.Table} {r : Rejection} :
    (startWith document).result = .error r ↔
      (∃ e, r = .values e ∧ ofDocument document = .error e) ∨
        ∃ values, ofDocument document = .ok values ∧
          ∃ e, r = .names e ∧ (start values).result = .error e := by
  cases h : ofDocument document with
  | error e => simp [startWith_of_error h, Run.fail, eq_comm]
  | ok values => cases hstart : (start values).result <;>
      simp [startWith_of_ok h, Run.mapError, hstart, Except.mapError, eq_comm]

/-- **Documents of initial values.** Let no integer of a document be too long to be written, and let
the names of its table `registers` be such as can be looked up. The machine starts with it if and
only if it gives words to registers that can be written, and nothing else. Each register then holds
the last value that the document has for it, or zero. Otherwise what is told is the first value that
is not what it should be, of both tables, and only without one the first name. A file that holds the
document starts the program in the same way. -/
theorem startWith_cases (document : Toml.Table)
    (hintegers : (Toml.Value.table document).HoldsWritable)
    (hnames : ∀ entries, Entries document "registers" entries →
      ∀ entry ∈ entries, ∃ proper, Bank.general.canonical entry.1 = .ok proper) :
    let run := startWith document
    (run.result = .ok () ↔ IsAccepted document) ∧
      (run.result = .ok () → ∀ general special, Entries document "registers" general →
        Entries document "special" special →
          (∀ i, (Bank.general.lastFor? general i).getD (.integer 0) =
            .integer (run.machine.general.value i)) ∧
          ∀ a, (Bank.accumulators.lastFor? special a.index).getD (.integer 0) =
            .integer (run.machine.accumulator a)) ∧
      (∀ r, run.result = .error r ↔ Rejects document r) ∧
      ∀ disk path text, Disk.readText disk path = .ok text →
        Toml.read (Text.unifyBreaks text) = .ok document →
          Program.loadFile disk path = run.mapError Rejection.verdict := by
  intro run
  refine ⟨result_startWith_eq_ok_iff.trans exists_start_iff, ?_, fun r => ?_,
    fun disk path text => loadFile_of_document⟩
  · intro hrun general special hgeneral hspecial
    obtain ⟨values, hvalues, hstart⟩ := result_startWith_eq_ok_iff.1 hrun
    obtain ⟨hwords, hwords'⟩ := ofDocument_eq_ok_iff.1 hvalues
    obtain ⟨done, done'⟩ := result_start_eq_ok_iff.1 hstart
    obtain rfl := hgeneral.unique (readPart_eq_ok_iff.1 hwords).1
    obtain rfl := hspecial.unique (readPart_eq_ok_iff.1 hwords').1
    have machine : run.machine = (start values).machine := by
      simp only [run, startWith_of_ok hvalues, Run.mapError]
    rw [machine, machine_start hstart]
    exact ⟨lastFor?_update done, fun a => lastFor?_update done' a.index⟩
  · rw [result_startWith_eq_error_iff]
    constructor
    · rintro (⟨e, rfl, he⟩ | ⟨values, hvalues, e, rfl, he⟩)
      · obtain ⟨f, hf, told⟩ := (ofDocument_eq_error_iff hintegers).1 he
        exact .values hf told
      · obtain ⟨f, rfl, hf⟩ := (result_start_eq_error_iff_firstName hvalues hnames).1 he
        obtain ⟨hwords, hwords'⟩ := ofDocument_eq_ok_iff.1 hvalues
        exact .names (exists_readPart_iff.1 ⟨_, hwords⟩) (exists_readPart_iff.1 ⟨_, hwords'⟩) hf
    · intro hr
      cases hr with
      | values hf told =>
        exact .inl ⟨_, rfl, (ofDocument_eq_error_iff hintegers).2 ⟨_, hf, told⟩⟩
      | names hregisters hspecial hf =>
        obtain ⟨general, hgeneral⟩ := exists_readPart_iff.2 hregisters
        obtain ⟨accumulators, haccumulators⟩ := exists_readPart_iff.2 hspecial
        have hvalues : ofDocument document = .ok ⟨general, accumulators⟩ :=
          ofDocument_eq_ok_iff.2 ⟨hgeneral, haccumulators⟩
        exact .inr ⟨_, hvalues, _, rfl,
          (result_start_eq_error_iff_firstName hvalues hnames).2 ⟨_, rfl, hf⟩⟩

/-- A register is given under two of its names, and the last value counts; in another document a
value that is no word is told before a name that cannot be written. -/
theorem startWith_cases_aliases :
    let accepted : Toml.Table :=
      [("registers", .table [("$8", .integer 5), ("$t1", .integer 0xffffffff),
        ("$t0", .integer (-1))]), ("special", .table [("lo", .integer 7)])]
    let rejected : Toml.Table :=
      [("special", .table [("hi", .boolean true)]), ("registers", .table [("$0", .integer 1)])]
    ((Toml.Value.table accepted).HoldsWritable ∧ (Toml.Value.table rejected).HoldsWritable) ∧
      (startWith accepted).result = .ok () ∧
      (startWith accepted).machine.general.value 8 = -1 ∧
      (startWith accepted).machine.accumulator .lo = 7 ∧
      (startWith rejected).result =
        .error (.values (.fault (.notInteger "hi" (.boolean true)))) := by
  intro accepted rejected
  have registers : Entries accepted "registers" [("$8", .integer 5), ("$t1", .integer 0xffffffff),
      ("$t0", .integer (-1))] := .table rfl
  have special : Entries accepted "special" [("lo", .integer 7)] := .table rfl
  have writable : (Toml.Value.table accepted).HoldsWritable :=
    Toml.Value.holdsWritable_table <| List.forall_mem_cons.2
      ⟨holdsWritable_entries [("$8", 5), ("$t1", 0xffffffff), ("$t0", -1)] (by decide),
        List.forall_mem_singleton.2 (holdsWritable_entries [("lo", 7)] (by decide))⟩
  have writable' : (Toml.Value.table rejected).HoldsWritable :=
    Toml.Value.holdsWritable_table <| List.forall_mem_cons.2
      ⟨Toml.Value.holdsWritable_table (List.forall_mem_singleton.2
          (Toml.Value.holdsWritable_of_parts_eq_nil nofun rfl)),
        List.forall_mem_singleton.2 (holdsWritable_entries [("$0", 1)] (by decide))⟩
  have named : ∀ entries, Entries accepted "registers" entries →
      ∀ entry ∈ entries, ∃ proper, Bank.general.canonical entry.1 = .ok proper := by
    intro entries hentries
    obtain rfl := hentries.unique registers
    simp only [List.forall_mem_cons]
    exact ⟨⟨"$t0", rfl⟩, ⟨"$t1", rfl⟩, ⟨"$t0", rfl⟩, fun _ h => nomatch h⟩
  have named' : ∀ entries, Entries rejected "registers" entries →
      ∀ entry ∈ entries, ∃ proper, Bank.general.canonical entry.1 = .ok proper := by
    intro entries hentries
    obtain rfl := hentries.unique (.table rfl)
    exact List.forall_mem_singleton.2 ⟨"$zero", rfl⟩
  obtain ⟨accepts, holds, -⟩ := startWith_cases accepted writable named
  obtain ⟨-, -, rejects, -⟩ := startWith_cases rejected writable' named'
  have started : (startWith accepted).result = .ok () := by
    refine accepts.2 ⟨⟨_, registers, ?_⟩, _, special, ?_⟩
    · simp only [List.forall_mem_cons]
      exact ⟨⟨⟨5, rfl, by decide⟩, 8, rfl, by decide⟩,
        ⟨⟨0xffffffff, rfl, by decide⟩, 9, rfl, by decide⟩,
        ⟨⟨-1, rfl, by decide⟩, 8, rfl, by decide⟩, fun _ h => nomatch h⟩
    · exact List.forall_mem_singleton.2 ⟨⟨7, rfl, by decide⟩, .inr rfl⟩
  obtain ⟨general, accumulators⟩ := holds started _ _ registers special
  refine ⟨⟨writable, writable'⟩, started, ?_, ?_, ?_⟩
  · exact (Toml.Value.integer.inj (general 8)).symm
  · exact (Toml.Value.integer.inj (accumulators .lo)).symm
  · have sound : IsSound rejected "registers" :=
      ⟨_, .table rfl, List.forall_mem_singleton.2 ⟨1, rfl, by decide⟩⟩
    have faulty : FirstFault rejected (.notInteger "hi" (.boolean true)) :=
      .special sound (.entry rfl (.here (.notInteger nofun)))
    exact (rejects _).2 (.values faulty (.shown (Toml.Value.isShallow_of_parts_eq_nil rfl)))

/-- A register that is given a table with too many tables in it. -/
theorem result_startWith_nested {depth : Nat} (hdepth : Toml.Value.greatestDepth < depth) :
    let document : Toml.Table := [("registers", .table [("$t0", .nested depth)])]
    (Toml.Value.table document).HoldsWritable ∧
      (∀ entries, Entries document "registers" entries →
        ∀ entry ∈ entries, ∃ proper, Bank.general.canonical entry.1 = .ok proper) ∧
      FirstFault document (.notInteger "$t0" (.nested depth)) ∧
      (startWith document).result = .error (.values (.tooDeep .showing)) := by
  intro document
  have registers : Entries document "registers" [("$t0", .nested depth)] := .table rfl
  have writable : (Toml.Value.table document).HoldsWritable :=
    Toml.Value.holdsWritable_table <| List.forall_mem_singleton.2 <|
      Toml.Value.holdsWritable_table <| List.forall_mem_singleton.2 <|
        Toml.Value.holdsWritable_nested depth
  have faulty : FirstFault document (.notInteger "$t0" (.nested depth)) :=
    .registers (.entry rfl (.here (.notInteger (Toml.Value.nested_ne_integer depth))))
  have deep : ¬(Toml.Value.nested depth).IsShallow := fun shallow =>
    Nat.not_le_of_lt hdepth (shallow depth _ (Toml.Value.holds_nested depth))
  refine ⟨writable, fun entries hentries => ?_, faulty, ?_⟩
  · obtain rfl := hentries.unique registers
    exact List.forall_mem_singleton.2 ⟨_, Bank.canonical_of_find (Bank.general.find_name 8)⟩
  · rw [startWith_of_error ((ofDocument_eq_error_iff writable).2 ⟨_, faulty, .tooDeep deep⟩)]
    rfl

/-- A value that is no integer is not told if too many values are in it. -/
theorem startWith_deep :
    let document : Toml.Table := [("registers", .table [("$t0", .nested 1500)])]
    (Toml.Value.table document).HoldsWritable ∧
      (∀ entries, Entries document "registers" entries →
        ∀ entry ∈ entries, ∃ proper, Bank.general.canonical entry.1 = .ok proper) ∧
      FirstFault document (.notInteger "$t0" (.nested 1500)) ∧
      (startWith document).result = .error (.values (.tooDeep .showing)) :=
  result_startWith_nested (by decide)

end Machine

end TinyMips
