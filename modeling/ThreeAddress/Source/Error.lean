import ThreeAddress.Failure
import ThreeAddress.Language.Argument
import ThreeAddress.Language.Opcode

/-! Errors of source text name the line that is at fault. -/

namespace ThreeAddress.Source

/-- What is wrong with a line. -/
inductive Problem where
  /-- The header does not stand where it has to. -/
  | header
  /-- No operation has the mnemonic. -/
  | unknownOperation (word : String)
  /-- There are too many or too few operands. -/
  | operandCount (opcode : Opcode) (expected found : Nat)
  /-- A word does not have the shape of its slot. -/
  | shape (word : String) (expected : Slot)
  /-- A word has the shape of its slot but denotes nothing. -/
  | invalid (error : ArgumentError)
  deriving DecidableEq, Repr

/-- A problem in the line of the given number. -/
structure Error where
  line : Nat
  problem : Problem
  deriving DecidableEq, Repr

/-- The line with which source text begins. -/
def headerText : String := ".IPPcode23"

/-- The wording of a problem. -/
def Problem.message : Problem → String
  | header => "expected header '" ++ headerText ++ "'"
  | unknownOperation word => "unknown opcode '" ++ word ++ "'"
  | operandCount opcode expected found =>
    s!"{opcode.mnemonic} expects {expected} operand(s), found {found}"
  | shape word expected => s!"'{word}' is not a valid {expected.name}"
  | invalid error => error.message

/-- The class of a problem. -/
def Problem.failure : Problem → Failure
  | header => .missingHeader
  | unknownOperation _ => .unknownOperation
  | operandCount _ _ _ => .malformedLine
  | shape _ _ => .malformedLine
  | invalid _ => .malformedLine

/-- The wording of an error. -/
def Error.message (e : Error) : String :=
  s!"line {e.line}: {e.problem.message}"

end ThreeAddress.Source
