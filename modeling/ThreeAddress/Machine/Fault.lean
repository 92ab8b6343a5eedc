import ThreeAddress.Language.Flaw
import ThreeAddress.Machine.Frames

/-! A fault ends a run: an instruction cannot be carried out, or a stream takes no more text. -/

namespace ThreeAddress

/-- Why an instruction cannot be carried out. -/
inductive Cause where
  /-- The program is flawed. -/
  | flaw (flaw : Flaw)
  /-- A frame operation is refused. -/
  | frame (error : FrameError)
  /-- The types of the operands do not fit the operation. -/
  | wrongTypes (opcode : Opcode)
  /-- There is no value to take from the data stack. -/
  | emptyDataStack
  /-- There is no call to return from. -/
  | emptyCallStack
  /-- The divisor is zero. -/
  | divisionByZero
  /-- The exit status is outside its range. -/
  | exitStatus (code : Int64)
  /-- The index is outside a string of the given length. -/
  | stringIndex (index : Int64) (length : Nat)
  /-- The number is not the code point of a character. -/
  | codePoint (code : Int64)
  /-- There is no character to put into a string. -/
  | emptyReplacement
  deriving DecidableEq, Repr

/-- What ends a run before its time. -/
inductive Fault where
  /-- The instruction of the given order fails. -/
  | raised (order : UInt64) (cause : Cause)
  /-- A stream refuses what is written to it. -/
  | refused (reason : String)
  deriving DecidableEq, Repr

namespace Cause

/-- The wording of a cause in the instruction of the given order. -/
def message (order : UInt64) : Cause → String
  | flaw f => f.message order
  | frame e => s!"{e.message} at order {order}"
  | wrongTypes opcode => s!"wrong operand types for {opcode.mnemonic} at order {order}"
  | emptyDataStack => s!"data stack is empty at order {order}"
  | emptyCallStack => s!"call stack is empty at order {order}"
  | divisionByZero => s!"division by zero at order {order}"
  | exitStatus code => s!"exit code {code.toInt} out of range 0..=49 at order {order}"
  | stringIndex index length =>
    s!"string index {index.toInt} out of bounds (length {length}) at order {order}"
  | codePoint code => s!"invalid code point {code.toInt} at order {order}"
  | emptyReplacement => s!"empty replacement string at order {order}"

/-- The class of a cause. -/
def failure : Cause → Failure
  | flaw f => f.failure
  | frame e => e.failure
  | wrongTypes _ => .wrongType
  | emptyDataStack => .missingValue
  | emptyCallStack => .missingValue
  | divisionByZero => .wrongValue
  | exitStatus _ => .wrongValue
  | stringIndex _ _ => .invalidString
  | codePoint _ => .invalidString
  | emptyReplacement => .invalidString

end Cause

namespace Fault

/-- The wording of a fault. -/
def message : Fault → String
  | raised order cause => cause.message order
  | refused reason => "cannot write output: " ++ reason

/-- The class of a fault. -/
def failure : Fault → Failure
  | raised _ cause => cause.failure
  | refused _ => .unwritableOutput

end Fault

end ThreeAddress
