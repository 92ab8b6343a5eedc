import ThreeAddress.Language.Operand

/-! Every operation has a mnemonic and a signature, which is the list of slots for its operands. -/

namespace ThreeAddress

/-- What an operation accepts in one place. -/
inductive Slot where
  /-- A variable, which the operation declares or assigns. -/
  | var
  /-- A literal or a variable, whose value the operation reads. -/
  | symbol
  /-- The name of a position in the program. -/
  | label
  /-- The name of a type. -/
  | type
  deriving DecidableEq, Repr

namespace Slot

/-- All slots, in the order of their introduction. -/
def all : List Slot :=
  [var, symbol, label, type]

/-- The name of a slot in messages. -/
def name : Slot → String
  | var => "var"
  | symbol => "symb"
  | label => "label"
  | type => "type"

/-- An operand fits a slot of its own kind, and both literals and variables are symbols. -/
def accepts : Slot → Operand → Bool
  | var, .var _ => true
  | symbol, operand => operand.isSymbol
  | label, .label _ => true
  | type, .type _ => true
  | _, _ => false

end Slot

/-- The operations of the language. -/
inductive Opcode where
  | move | createFrame | pushFrame | popFrame | defVar | call | ret
  | pushs | pops
  | add | sub | mul | idiv
  | lt | gt | eq | and | or | not
  | int2char | stri2int
  | read | write
  | concat | strlen | getChar | setChar
  | type
  | label | jump | jumpIfEq | jumpIfNeq | exit
  | dprint | dump
  deriving DecidableEq, Repr

namespace Opcode

/-- All operations, in the order of their introduction. -/
def all : List Opcode :=
  [move, createFrame, pushFrame, popFrame, defVar, call, ret, pushs, pops, add, sub, mul, idiv,
    lt, gt, eq, and, or, not, int2char, stri2int, read, write, concat, strlen, getChar, setChar,
    type, label, jump, jumpIfEq, jumpIfNeq, exit, dprint, dump]

/-- The canonical mnemonic of an operation, in upper case. -/
def mnemonic : Opcode → String
  | move => "MOVE"
  | createFrame => "CREATEFRAME"
  | pushFrame => "PUSHFRAME"
  | popFrame => "POPFRAME"
  | defVar => "DEFVAR"
  | call => "CALL"
  | ret => "RETURN"
  | pushs => "PUSHS"
  | pops => "POPS"
  | add => "ADD"
  | sub => "SUB"
  | mul => "MUL"
  | idiv => "IDIV"
  | lt => "LT"
  | gt => "GT"
  | eq => "EQ"
  | and => "AND"
  | or => "OR"
  | not => "NOT"
  | int2char => "INT2CHAR"
  | stri2int => "STRI2INT"
  | read => "READ"
  | write => "WRITE"
  | concat => "CONCAT"
  | strlen => "STRLEN"
  | getChar => "GETCHAR"
  | setChar => "SETCHAR"
  | type => "TYPE"
  | label => "LABEL"
  | jump => "JUMP"
  | jumpIfEq => "JUMPIFEQ"
  | jumpIfNeq => "JUMPIFNEQ"
  | exit => "EXIT"
  | dprint => "DPRINT"
  | dump => "BREAK"

/-- The operation of the given mnemonic, where the case of ASCII letters does not matter. -/
def ofMnemonic? (text : String) : Option Opcode :=
  all.find? fun opcode => opcode.mnemonic.toList = text.toList.map Char.toUpper

/-- The slots for the operands of an operation. -/
def signature : Opcode → List Slot
  | createFrame | pushFrame | popFrame | ret | dump => []
  | defVar | pops => [.var]
  | call | label | jump => [.label]
  | pushs | write | exit | dprint => [.symbol]
  | move | not | int2char | strlen | type => [.var, .symbol]
  | read => [.var, .type]
  | add | sub | mul | idiv | lt | gt | eq | and | or | stri2int | concat | getChar | setChar =>
    [.var, .symbol, .symbol]
  | jumpIfEq | jumpIfNeq => [.label, .symbol, .symbol]

/-- The operations that may continue at a label. -/
def isJump : Opcode → Bool
  | call | jump | jumpIfEq | jumpIfNeq => true
  | _ => false

end Opcode

end ThreeAddress
