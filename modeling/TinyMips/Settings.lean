/-!
# Settings

What a user can choose about a run, and changes to a part of it.
-/

namespace TinyMips

/-- The choices for a run. -/
structure Settings where
  /-- whether the log has all details -/
  verbose : Bool := false
  /-- the name of the layout of tables -/
  tableFormat : String := "grid"
  /-- whether all registers are listed at the end -/
  dump : Bool := false
  /-- the file with the initial values, if there is one -/
  init? : Option String := none
  deriving DecidableEq, Repr

/-- New choices; what is missing stays as it is. -/
structure Settings.Patch where
  /-- whether the log has all details -/
  verbose? : Option Bool := none
  /-- the name of the layout of tables -/
  tableFormat? : Option String := none
  /-- whether all registers are listed at the end -/
  dump? : Option Bool := none
  /-- the file with the initial values -/
  init? : Option String := none
  deriving DecidableEq, Repr

/-- The settings with new choices. -/
def Settings.update (settings : Settings) (patch : Settings.Patch) : Settings where
  verbose := patch.verbose?.getD settings.verbose
  tableFormat := patch.tableFormat?.getD settings.tableFormat
  dump := patch.dump?.getD settings.dump
  init? := patch.init?.or settings.init?

end TinyMips
