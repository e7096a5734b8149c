/-!
# Operand shapes

Which operands an instruction takes.
-/

namespace TinyMips

/-- The operands of an instruction: a destination, sources, and an immediate number. -/
inductive Shape where
  /-- a destination and two source registers -/
  | rrr
  /-- a destination, a source register and an immediate -/
  | rri
  /-- two source registers -/
  | rr
  /-- a destination -/
  | r
  deriving DecidableEq, Repr

namespace Shape

/-- The name of the shape: one letter for each operand. -/
def label : Shape → String
  | .rrr => "RRR"
  | .rri => "RRI"
  | .rr => "RR"
  | .r => "R"

/-- The operands as a message lists them. -/
def hint : Shape → String
  | .rrr => "rd, rs, rt"
  | .rri => "rd, rs, imm"
  | .rr => "rs, rt"
  | .r => "rd"

/-- All shapes. -/
def all : List Shape := [.rrr, .rri, .rr, .r]

/-- The shape with a given name. -/
def ofLabel? (s : String) : Option Shape :=
  all.find? (·.label == s)

end Shape

end TinyMips
