import TinyMips.Bank

/-!
# Register files

The contents of the registers of a bank. A batch of changes is checked as a whole before any of
it is written; the values themselves are checked one by one, as each is written. Registers are
written by their names, so each is looked up and checked a second time. The main statement is that
nothing new comes of that (`RegisterFile.write_cons`).
-/

namespace TinyMips

/-- A value for each register of a bank. -/
structure RegisterFile {size : Nat} (bank : Bank size) where
  /-- the values in the order of the registers -/
  values : Vector Int size

/-- One register written. -/
structure Change where
  /-- the name of the register -/
  register : String
  /-- its value before -/
  old : Int
  /-- its value after -/
  new : Int
  deriving DecidableEq, Repr

/-- What a batch of changes does. -/
structure Update {size : Nat} (bank : Bank size) where
  /-- the registers afterwards -/
  file : RegisterFile bank
  /-- the changes that were made, in order -/
  changes : List Change
  /-- why the batch was not carried out to its end -/
  failure? : Option Failure

namespace RegisterFile

variable {size : Nat} {bank : Bank size}

/-- All registers are zero. -/
def zero (bank : Bank size) : RegisterFile bank :=
  ⟨Vector.replicate size 0⟩

instance : Inhabited (RegisterFile bank) :=
  ⟨zero bank⟩

/-- The value of a register. -/
def value (file : RegisterFile bank) (i : Fin size) : Int :=
  file.values.get i

/-- The file with another value in one register. -/
def put (file : RegisterFile bank) (i : Fin size) (v : Int) : RegisterFile bank :=
  ⟨file.values.set i v i.isLt⟩

/-- The value of the register that a name stands for. -/
def get (file : RegisterFile bank) (name : String) : Except Failure Int := do
  return file.value (← bank.source name)

/-- Whether a name stands for a register. -/
def contains (_file : RegisterFile bank) (name : String) : Except Numeral.Error Bool := do
  return (← bank.find name).isSome

/-- Writes one register. Values too long to be logged are refused. -/
def set (file : RegisterFile bank) (name : String) (v : Int) :
    Except Failure (RegisterFile bank) := do
  let i ← bank.target name
  if Numeral.Writable v then .ok (file.put i v) else .error (.numeral .tooLongToWrite)

/-- The registers to write, all of them checked. -/
def targets (bank : Bank size) (batch : List (String × Int)) :
    Except Failure (List (Fin size × Int)) :=
  batch.mapM fun (name, v) => do return (← bank.target name, v)

/-- Writes registers by their names, one after the other, up to the first that fails. -/
def write (file : RegisterFile bank) : List (Fin size × Int) → Update bank
  | [] => { file, changes := [], failure? := none }
  | (i, v) :: rest =>
    match file.set (bank.name i) v with
    | .error e => { file, changes := [], failure? := some e }
    | .ok next =>
      let update := next.write rest
      { update with changes := { register := bank.name i, old := file.value i, new := v } ::
          update.changes }

/-- The batch that a list of changes stands for: a later value for a name takes the place of an
earlier one. -/
def mergeChanges (changes : List (String × Int)) : List (String × Int) :=
  changes.foldl (fun batch change =>
    if batch.any (·.1 == change.1) then
      batch.map fun entry => if entry.1 == change.1 then change else entry
    else batch ++ [change]) []

/-- Carries out a batch of changes, given by name and in order. -/
def update (file : RegisterFile bank) (batch : List (String × Int)) : Update bank :=
  match targets bank batch with
  | .error e => { file, changes := [], failure? := some e }
  | .ok writes => file.write writes

/-- The names and values of all registers. -/
def toList (file : RegisterFile bank) : List (String × Int) :=
  (List.finRange size).map fun i => (bank.name i, file.value i)

@[simp] theorem value_put_self (file : RegisterFile bank) (i : Fin size) (v : Int) :
    (file.put i v).value i = v :=
  Vector.getElem_set_self i.isLt

theorem value_put_of_ne (file : RegisterFile bank) {i j : Fin size} (h : i ≠ j) (v : Int) :
    (file.put i v).value j = file.value j :=
  Vector.getElem_set_ne i.isLt j.isLt fun e => h (Fin.ext e)

@[simp] theorem value_zero (i : Fin size) : (zero bank).value i = 0 :=
  Vector.getElem_replicate i.isLt

/-- A register that is not protected is written under its name. -/
theorem set_name (file : RegisterFile bank) {i : Fin size} (h : bank.isProtected i = false)
    (v : Int) :
    file.set (bank.name i) v =
      if Numeral.Writable v then .ok (file.put i v) else .error (.numeral .tooLongToWrite) := by
  rw [set, bank.target_name h]
  rfl

/-- Where the registers to write are not protected, they are written one after the other, up to the
first value too long to be logged. -/
theorem write_cons (file : RegisterFile bank) {i : Fin size} (h : bank.isProtected i = false)
    (v : Int) (rest : List (Fin size × Int)) :
    file.write ((i, v) :: rest) =
      if Numeral.Writable v then
        let update := (file.put i v).write rest
        { update with changes := { register := bank.name i, old := file.value i, new := v } ::
            update.changes }
      else
        { file, changes := [], failure? := some (.numeral .tooLongToWrite) } := by
  rw [write, file.set_name h]
  by_cases hv : Numeral.Writable v
  · rw [if_pos hv, if_pos hv]
  · rw [if_neg hv, if_neg hv]

end RegisterFile

end TinyMips
