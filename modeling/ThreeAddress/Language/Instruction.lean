import ThreeAddress.Language.Argument
import ThreeAddress.Language.Opcode

/-! An instruction is an operation with its operands and a declared order, which places it. -/

namespace ThreeAddress

/-- An instruction of a program. -/
structure Instruction where
  opcode : Opcode
  order : UInt64
  operands : List Operand
  deriving DecidableEq, Repr

/-- The ways in which operands fail to fit a signature. -/
inductive Misfit where
  /-- There are too many or too few operands. -/
  | count (expected found : Nat)
  /-- The operand at a position, counted from one, does not fit its slot. -/
  | slot (position : Nat) (expected : Slot)
  deriving DecidableEq, Repr

/-- The wording of a misfit in an instruction of the given operation and order. -/
def Misfit.message (opcode : Opcode) (order : UInt64) : Misfit → String
  | count expected found =>
    s!"{opcode.mnemonic} at order {order} expects {expected} operand(s), found {found}"
  | slot position expected =>
    s!"{opcode.mnemonic} at order {order}: operand {position} must be a {expected.name}"

/-- The first operand that does not fit its slot, where `position` is the place of the next one. -/
def firstMisfit (position : Nat) : List Slot → List Operand → Option Misfit
  | slot :: slots, operand :: operands =>
    if slot.accepts operand then firstMisfit (position + 1) slots operands
    else some (.slot position slot)
  | _, _ => none

/-- The first argument whose position differs from its rank, where `rank` is that of the next. -/
def firstMisplaced (rank : Nat) : List Argument → Option Nat
  | [] => none
  | argument :: rest =>
    if argument.position = rank then firstMisplaced (rank + 1) rest else some argument.position

namespace Instruction

/-- The first way in which the operands fail to fit the signature, if there is one. -/
def misfit? (i : Instruction) : Option Misfit :=
  let expected := i.opcode.signature.length
  -- Operands are matched with slots only where there are as many.
  if expected = i.operands.length then firstMisfit 1 i.opcode.signature i.operands
  else some (.count expected i.operands.length)

/-- The label that an instruction defines or continues at. -/
def label? (i : Instruction) : Option String :=
  if i.opcode = .label || i.opcode.isJump then
    match i.operands with
    | .label name :: _ => some name
    | _ => none
  else none

/-- The label that an instruction defines. -/
def definedLabel? (i : Instruction) : Option String :=
  if i.opcode = .label then i.label? else none

/-- The label at which an instruction may continue. -/
def targetLabel? (i : Instruction) : Option String :=
  if i.opcode.isJump then i.label? else none

/-- Builds an instruction from arguments in any sequence, which their positions put into place. -/
def ofArguments (opcode : Opcode) (order : UInt64) (arguments : List Argument) :
    Except ArgumentError Instruction :=
  -- Positions are checked before any text is decoded.
  let placed := arguments.mergeSort fun a b => a.position ≤ b.position
  match firstMisplaced 1 placed with
  | some position => .error (.invalidPosition position)
  | none => do
    let operands ← placed.mapM Operand.ofArgument
    return { opcode, order, operands }

end Instruction

end ThreeAddress
