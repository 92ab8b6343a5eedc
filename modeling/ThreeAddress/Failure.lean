/-! Every refusal of a program belongs to one class, and the class alone fixes the exit status. -/

namespace ThreeAddress

/-- The classes of failure that a user can tell apart by the exit status. -/
inductive Failure where
  /-- The command line asks for nothing that can be done. -/
  | usage
  /-- A source or input file cannot be read. -/
  | unreadableInput
  /-- An output stream refuses what is written to it. -/
  | unwritableOutput
  /-- The source text lacks its header line. -/
  | missingHeader
  /-- The source text names an operation that does not exist. -/
  | unknownOperation
  /-- A line of the source text has the wrong shape or holds an invalid value. -/
  | malformedLine
  /-- A document is not well-formed markup. -/
  | malformedDocument
  /-- A program has the wrong structure: its elements, orders, arguments or operands. -/
  | invalidStructure
  /-- A label or a variable is declared twice, or a label is missing. -/
  | invalidMeaning
  /-- The types of the operands do not fit the operation. -/
  | wrongType
  /-- A variable is not declared. -/
  | undeclaredVariable
  /-- A frame does not exist. -/
  | missingFrame
  /-- A variable, the data stack or the call stack holds no value. -/
  | missingValue
  /-- The value of an operand is outside the domain of the operation. -/
  | wrongValue
  /-- A string operation addresses what is not there. -/
  | invalidString
  deriving DecidableEq, Repr

namespace Failure

/-- All classes, in ascending order of their exit status. -/
def all : List Failure :=
  [usage, unreadableInput, unwritableOutput, missingHeader, unknownOperation, malformedLine,
    malformedDocument, invalidStructure, invalidMeaning, wrongType, undeclaredVariable,
    missingFrame, missingValue, wrongValue, invalidString]

/-- The exit status that reports a class. -/
def exitCode : Failure → Nat
  | usage => 10
  | unreadableInput => 11
  | unwritableOutput => 12
  | missingHeader => 21
  | unknownOperation => 22
  | malformedLine => 23
  | malformedDocument => 31
  | invalidStructure => 32
  | invalidMeaning => 52
  | wrongType => 53
  | undeclaredVariable => 54
  | missingFrame => 55
  | missingValue => 56
  | wrongValue => 57
  | invalidString => 58

end Failure

end ThreeAddress
