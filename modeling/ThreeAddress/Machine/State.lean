import ThreeAddress.Machine.Console
import ThreeAddress.Machine.Fault

/-! The state of a machine between two instructions. -/

namespace ThreeAddress

/-- A machine, where both stacks are listed from the top. -/
structure Machine where
  frames : Frames
  /-- Values that were put aside. -/
  dataStack : List Value
  /-- Positions of the calls that have not returned. -/
  callStack : List Nat
  /-- Position of the instruction to carry out next. -/
  pc : Nat
  /-- Number of instructions completed so far, labels excepted; none completes 2^64 of them. -/
  executed : Nat
  /-- Operation of the instruction completed last. -/
  last : Option Opcode
  /-- Input that was not read yet. -/
  input : List UInt8
  console : Console
  deriving DecidableEq, Repr

namespace Machine

/-- A machine before its first instruction. -/
def fresh (input : List UInt8) : Machine :=
  { frames := .initial, dataStack := [], callStack := [], pc := 0, executed := 0, last := none,
    input, console := .empty }

/-- Counts an instruction of the given operation as completed. -/
def complete (m : Machine) (opcode : Opcode) : Machine :=
  { m with executed := if opcode = .label then m.executed else m.executed + 1, last := some opcode }

end Machine

end ThreeAddress
