import ThreeAddress.Language.Program
import ThreeAddress.Source.Error

/-! The listing of a program is its canonical source text. -/

namespace ThreeAddress

/-- An instruction as a line of source text: its mnemonic and its operands. -/
def Instruction.listing (i : Instruction) : String :=
  String.intercalate " " (i.opcode.mnemonic :: i.operands.map Operand.text)

/-- The canonical source text of a program: the header and the instructions by order. -/
def Program.listing (p : Program) : String :=
  String.join ((Source.headerText :: p.sorted.map Instruction.listing).map fun line => line ++ "\n")

end ThreeAddress
