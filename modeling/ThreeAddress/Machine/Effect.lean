import ThreeAddress.Machine.Console
import ThreeAddress.Machine.Image
import ThreeAddress.Machine.Operation

/-!
Before anything changes, an instruction is reduced to its effect: the operands are read, the
result is computed and the label is looked up, and what is left says only what is to change.
-/

namespace ThreeAddress

/-- What an instruction is about to change. -/
inductive Effect where
  /-- Nothing. -/
  | skip
  | createFrame
  | pushFrame
  | popFrame
  | declare (x : Variable)
  | assign (x : Variable) (value : Value)
  /-- A variable is assigned the next line of input under a type. -/
  | receive (x : Variable) (type : DataType)
  | push (value : Value)
  /-- A variable is assigned the top of the data stack. -/
  | pop (x : Variable)
  | call (target : Nat)
  | ret
  | jump (target : Nat)
  | write (stream : Stream) (text : String)
  /-- The state of the machine is written to the stream for debugging. -/
  | dump
  | exit (code : Nat)
  deriving DecidableEq, Repr

namespace Instruction

/-- The value of the operand at an index, which must be a symbol. -/
def value (i : Instruction) (frames : Frames) (index : Nat) : Except Cause Value :=
  match i.operands[index]? with
  | some (.literal value) => .ok value
  | some (.var x) => (frames.read x).mapError .frame
  | _ => .error (.wrongTypes i.opcode)

/-- The type of the operand at an index, which must be a symbol and may be unassigned. -/
def typeOf (i : Instruction) (frames : Frames) (index : Nat) : Except Cause (Option DataType) :=
  match i.operands[index]? with
  | some (.literal value) => .ok (some value.dataType)
  | some (.var x) => (frames.typeOf x).mapError .frame
  | _ => .error (.wrongTypes i.opcode)

/-- The variable that an instruction declares or assigns, which is its first operand. -/
def destination (i : Instruction) : Except Cause Variable :=
  match i.operands with
  | .var x :: _ => .ok x
  | _ => .error (.wrongTypes i.opcode)

/-- The position of the label at which an instruction continues, which is its first operand. -/
def target (i : Instruction) (labels : Labels) : Except Cause Nat :=
  match i.operands with
  | .label name :: _ =>
    match labels.lookup name with
    | none => .error (.flaw (.undefinedLabel name))
    | some position => .ok position
  | _ => .error (.wrongTypes i.opcode)

/-- The effect of assigning a value to the destination. -/
def assigning (i : Instruction) (value : Value) : Except Cause Effect := do
  return .assign (← i.destination) value

/-- The effect of a jump that is taken if the two sources are equal, or if they are not. -/
def branching (i : Instruction) (labels : Labels) (frames : Frames) (wanted : Bool) :
    Except Cause Effect := do
  -- The label has to be defined even if the jump is not taken.
  let position ← i.target labels
  let a ← i.value frames 1
  let b ← i.value frames 2
  match a.equals? b with
  | none => .error (.wrongTypes i.opcode)
  | some equal => return if equal = wanted then .jump position else .skip

/-- The effect of ending a run with a status. -/
def exiting (i : Instruction) : Value → Except Cause Effect
  | .int code =>
    if 0 ≤ code.toInt ∧ code.toInt ≤ 49 then .ok (.exit code.toInt.toNat)
    else .error (.exitStatus code)
  | _ => .error (.wrongTypes i.opcode)

/-- The type that an instruction asks input for, which is its second operand and never nil. -/
def requested (i : Instruction) : Except Cause DataType :=
  match i.operands with
  | _ :: .type t :: _ => if t = .nil then .error (.wrongTypes i.opcode) else .ok t
  | _ => .error (.wrongTypes i.opcode)

/-- The effect of an instruction in the light of a label table and of the current frames. -/
def effect (i : Instruction) (labels : Labels) (frames : Frames) : Except Cause Effect :=
  match i.opcode with
  | .move => do i.assigning (← i.value frames 1)
  | .createFrame => .ok .createFrame
  | .pushFrame => .ok .pushFrame
  | .popFrame => .ok .popFrame
  | .defVar => do return .declare (← i.destination)
  | .call => do return .call (← i.target labels)
  | .ret => .ok .ret
  | .pushs => do return .push (← i.value frames 0)
  | .pops => do return .pop (← i.destination)
  | .add | .sub | .mul | .idiv | .lt | .gt | .eq | .and | .or | .stri2int | .concat | .getChar => do
    let a ← i.value frames 1
    let b ← i.value frames 2
    i.assigning (← i.opcode.combine a b)
  | .not | .int2char | .strlen => do i.assigning (← i.opcode.transform (← i.value frames 1))
  | .setChar => do
    -- The text to change is what the destination holds.
    let text ← i.value frames 0
    let index ← i.value frames 1
    let replacement ← i.value frames 2
    i.assigning (← replaceChar text index replacement)
  | .read => do
    let t ← i.requested
    return .receive (← i.destination) t
  | .write => do return .write .out (← i.value frames 0).render
  | .type => do
    -- A variable that was never assigned has no type, which is no error here.
    let name := match ← i.typeOf frames 1 with
      | none => ""
      | some t => t.name
    i.assigning (.string name)
  | .label => .ok .skip
  | .jump => do return .jump (← i.target labels)
  | .jumpIfEq => i.branching labels frames true
  | .jumpIfNeq => i.branching labels frames false
  | .exit => do i.exiting (← i.value frames 0)
  | .dprint => do return .write .err (← i.value frames 0).render
  | .dump => .ok .dump

end Instruction

end ThreeAddress
