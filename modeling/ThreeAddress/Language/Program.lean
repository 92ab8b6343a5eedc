import ThreeAddress.Language.Instruction

/-! A program is a list of instructions in any sequence; their orders decide where each stands. -/

namespace ThreeAddress

/-- A program: its instructions in the sequence in which they were read. -/
structure Program where
  instructions : List Instruction
  deriving DecidableEq, Repr

/-- The instructions by ascending order, where equal orders keep their sequence. -/
def Program.sorted (p : Program) : List Instruction :=
  p.instructions.mergeSort fun i j => i.order ≤ j.order

end ThreeAddress
