import ThreeAddress.Failure
import ThreeAddress.Language.Program

/-! Flaws are the faults of a program that show before it runs. -/

namespace ThreeAddress

/-- A fault of one instruction that is visible in the text of the program. -/
inductive Flaw where
  /-- Another instruction has the same order. -/
  | duplicateOrder
  /-- The operands do not fit the signature of the operation. -/
  | misfit (opcode : Opcode) (misfit : Misfit)
  /-- Another instruction defines the same label. -/
  | duplicateLabel (label : String)
  /-- No instruction defines the label to continue at. -/
  | undefinedLabel (label : String)
  deriving DecidableEq, Repr

namespace Flaw

/-- The wording of a flaw in the instruction of the given order. -/
def message (order : UInt64) : Flaw → String
  | duplicateOrder => s!"duplicate instruction order {order}"
  | misfit opcode m => m.message opcode order
  | duplicateLabel label => s!"duplicate label '{label}' at order {order}"
  | undefinedLabel label => s!"undefined label '{label}' at order {order}"

/-- The class of a flaw. -/
def failure : Flaw → Failure
  | duplicateOrder => .invalidStructure
  | misfit _ _ => .invalidStructure
  | duplicateLabel _ => .invalidMeaning
  | undefinedLabel _ => .invalidMeaning

end Flaw

end ThreeAddress
