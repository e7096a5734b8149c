import TinyMips.Dispatch
import TinyMips.InitialValues

/-!
# Startup

The machine as it is before a run: zero in every register, then the initial values.
-/

namespace TinyMips

/-- The machine with initial values written to its registers. The general registers come first,
and a name that stands for no register, or for one that cannot be written, stops the writing. -/
def Machine.start (values : InitialValues) : Run Failure Unit :=
  let m := Machine.zero
  let general := m.general.update values.general
  let m := { m with general := general.file }
  match general.failure? with
  | some e => { machine := m, events := general.notes, result := .error e }
  | none =>
    let accumulators := m.accumulators.update values.accumulators
    let m := { m with accumulators := accumulators.file }
    let events := general.notes ++ accumulators.notes
    match accumulators.failure? with
    | some e => { machine := m, events, result := .error e }
    | none => { machine := m, events, result := .ok () }

end TinyMips
