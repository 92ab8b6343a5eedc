import ThreeAddress.Machine.Fault

/-! Linking turns a program into an image: its instructions by order, and a table of its labels. -/

namespace ThreeAddress

/-- The labels of a program with the positions of their definitions, counted from zero. -/
abbrev Labels := List (String × Nat)

/-- A program that is ready to run. -/
structure Image where
  code : Array Instruction
  labels : Labels
  deriving DecidableEq, Repr

/-- The first order that two neighbouring instructions share. -/
def sharedOrder? : List Instruction → Option UInt64
  | i :: j :: rest => if i.order = j.order then some j.order else sharedOrder? (j :: rest)
  | _ => none

/-- Checks the instructions from a position on, and adds the labels they define to a table. -/
def linkFrom (position : Nat) (labels : Labels) : List Instruction → Except Fault Labels
  | [] => .ok labels
  | i :: rest =>
    -- Labels are looked at only where operands fit.
    match i.misfit? with
    | some m => .error (.raised i.order (.flaw (.misfit i.opcode m)))
    | none =>
      match i.definedLabel? with
      | none => linkFrom (position + 1) labels rest
      | some name =>
        if (labels.lookup name).isSome then
          .error (.raised i.order (.flaw (.duplicateLabel name)))
        else linkFrom (position + 1) ((name, position) :: labels) rest

/-- The label table of instructions in ascending order, if they have no flaw that shows here. -/
def linkCode (code : List Instruction) : Except Fault Labels :=
  -- A shared order is reported before anything else, wherever it stands.
  match sharedOrder? code with
  | some order => .error (.raised order (.flaw .duplicateOrder))
  | none => linkFrom 0 [] code

/-- Links a program: orders must differ, operands must fit, and labels must be defined once. -/
def Program.link (p : Program) : Except Fault Image := do
  let labels ← linkCode p.sorted
  return { code := p.sorted.toArray, labels }

end ThreeAddress
