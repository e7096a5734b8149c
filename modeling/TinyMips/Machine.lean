import TinyMips.RegisterFile

/-!
# The machine

The registers of the machine. Nothing else is carried from one instruction to the next.
-/

namespace TinyMips

/-- The state of the machine. -/
structure Machine where
  /-- the general registers -/
  general : RegisterFile Bank.general
  /-- the accumulators -/
  accumulators : RegisterFile Bank.accumulators
  deriving Inhabited

namespace Machine

/-- The machine with zero in every register. -/
def zero : Machine :=
  ⟨.zero _, .zero _⟩

/-- The value of an accumulator. -/
def accumulator (m : Machine) (a : Accumulator) : Int :=
  m.accumulators.value a.index

/-- The names and values of all registers, the general ones first. -/
def toList (m : Machine) : List (String × Int) :=
  m.general.toList ++ m.accumulators.toList

end Machine

end TinyMips
