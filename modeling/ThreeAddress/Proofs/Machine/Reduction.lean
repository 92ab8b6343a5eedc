import ThreeAddress.Machine.Effect
import ThreeAddress.Proofs.Result

/-!
How reducing an instruction to its effect fails. Whatever condition is met by the errors of reading
variables, by those of looking up the target, and by complaints about values, is met by all errors.
-/

namespace ThreeAddress

/-- A cause that lies in the values of operands or in their kinds, and not in the state around. -/
def Cause.OfValues : Cause → Prop
  | wrongTypes _ | divisionByZero | exitStatus _ | stringIndex _ _ | codePoint _
  | emptyReplacement => True
  | flaw _ | frame _ | emptyDataStack | emptyCallStack => False

open Cause

namespace Opcode

variable {opcode : Opcode}

private theorem answer_failsOnly (decided : Option Bool) :
    FailsOnly OfValues (opcode.answer decided) := by
  -- A test fails on wrong types only.
  cases decided with
  | none => exact FailsOnly.error trivial
  | some b => exact FailsOnly.ok _ _

private theorem onInts_failsOnly {f : Int64 → Int64 → Except Cause Value}
    (inner : ∀ m n, FailsOnly OfValues (f m n)) (a b : Value) :
    FailsOnly OfValues (opcode.onInts f a b) := by
  -- Arithmetic fails on wrong types, or as the function on integers does.
  unfold Opcode.onInts
  split
  · exact inner _ _
  · exact FailsOnly.error trivial

private theorem onBools_failsOnly (f : Bool → Bool → Bool) (a b : Value) :
    FailsOnly OfValues (opcode.onBools f a b) := by
  -- Logic fails on wrong types only.
  unfold Opcode.onBools
  split
  · exact FailsOnly.ok _ _
  · exact FailsOnly.error trivial

private theorem charAt_failsOnly (s : String) (index : Int64) :
    FailsOnly OfValues (charAt s index) := by
  -- An index can be below the text or beyond it.
  unfold charAt
  dsimp only
  split
  · exact FailsOnly.error trivial
  · split
    · exact FailsOnly.error trivial
    · exact FailsOnly.ok _ _

private theorem onIndexed_failsOnly (f : Char → Value) (a b : Value) :
    FailsOnly OfValues (opcode.onIndexed f a b) := by
  -- Access to a character fails on wrong types or on the index.
  unfold Opcode.onIndexed
  split
  · exact FailsOnly.bind (charAt_failsOnly _ _) fun c => FailsOnly.ok _ (f c)
  · exact FailsOnly.error trivial

private theorem joined_failsOnly (a b : Value) : FailsOnly OfValues (opcode.joined a b) := by
  -- Joining fails on wrong types only.
  unfold Opcode.joined
  split
  · exact FailsOnly.ok _ _
  · exact FailsOnly.error trivial

/-- Computing from two values fails because of these values. -/
theorem combine_failsOnly (a b : Value) : FailsOnly OfValues (opcode.combine a b) := by
  -- Every operation is one of a few schemes, which have been dealt with above.
  unfold Opcode.combine
  split
  · exact onInts_failsOnly (fun m n => FailsOnly.ok _ _) a b
  · exact onInts_failsOnly (fun m n => FailsOnly.ok _ _) a b
  · exact onInts_failsOnly (fun m n => FailsOnly.ok _ _) a b
  · refine onInts_failsOnly (fun m n => ?_) a b
    split
    · exact FailsOnly.error trivial
    · exact FailsOnly.ok _ _
  · exact answer_failsOnly _
  · exact answer_failsOnly _
  · exact answer_failsOnly _
  · exact onBools_failsOnly _ a b
  · exact onBools_failsOnly _ a b
  · exact joined_failsOnly a b
  · exact onIndexed_failsOnly _ a b
  · exact onIndexed_failsOnly _ a b
  · exact FailsOnly.error trivial

/-- Computing from one value fails because of this value. -/
theorem transform_failsOnly (a : Value) : FailsOnly OfValues (opcode.transform a) := by
  -- An operand of another type and a number that is no code point are all that can be wrong.
  unfold Opcode.transform
  split
  · exact FailsOnly.ok _ _
  · split
    · exact FailsOnly.error trivial
    · exact FailsOnly.ok _ _
  · exact FailsOnly.ok _ _
  · exact FailsOnly.error trivial

end Opcode

/-- Replacing a character fails because of the texts or the index. -/
theorem replaceChar_failsOnly (text index replacement : Value) :
    FailsOnly OfValues (replaceChar text index replacement) := by
  -- The index is looked at first, and an empty replacement after it.
  unfold replaceChar
  split
  · refine FailsOnly.bind (Opcode.charAt_failsOnly _ _) fun _ => ?_
    split
    · exact FailsOnly.error trivial
    · exact FailsOnly.ok _ _
  · exact FailsOnly.error trivial

/-- Conditions on causes that are met by errors of reading, and by complaints about values. -/
structure Cause.Admits (allowed : Cause → Prop) (frames : Frames) : Prop where
  values : ∀ cause, cause.OfValues → allowed cause
  read : ∀ x, FailsOnly (fun e => allowed (.frame e)) (frames.read x)
  typeOf : ∀ x, FailsOnly (fun e => allowed (.frame e)) (frames.typeOf x)

namespace Instruction

variable {i : Instruction} {frames : Frames} {labels : Labels} {allowed : Cause → Prop}
  (admits : Admits allowed frames)

include admits

/-- Reading a symbol fails on its variable or its kind. -/
theorem value_failsOnly (index : Nat) : FailsOnly allowed (i.value frames index) := by
  -- An operand has its value, is read from a variable, or is of the wrong kind.
  unfold Instruction.value
  split
  · exact FailsOnly.ok _ _
  · exact FailsOnly.mapError (admits.read _)
  · exact FailsOnly.error (admits.values _ trivial)

/-- Asking for a type fails on its variable or its kind. -/
theorem typeOf_failsOnly (index : Nat) : FailsOnly allowed (i.typeOf frames index) := by
  -- An operand has its type, is asked of a variable, or is of the wrong kind.
  unfold Instruction.typeOf
  split
  · exact FailsOnly.ok _ _
  · exact FailsOnly.mapError (admits.typeOf _)
  · exact FailsOnly.error (admits.values _ trivial)

private theorem destination_failsOnly : FailsOnly allowed i.destination := by
  -- A destination can only be of the wrong kind.
  unfold Instruction.destination
  split
  · exact FailsOnly.ok _ _
  · exact FailsOnly.error (admits.values _ trivial)

private theorem assigning_failsOnly (value : Value) : FailsOnly allowed (i.assigning value) :=
  -- Only the destination can be missing.
  FailsOnly.bind (destination_failsOnly admits) fun _ => FailsOnly.ok _ _

private theorem exiting_failsOnly (value : Value) : FailsOnly allowed (i.exiting value) := by
  -- An exit status can be out of range.
  unfold Instruction.exiting
  split
  · split
    · exact FailsOnly.ok _ _
    · exact FailsOnly.error (admits.values _ trivial)
  · exact FailsOnly.error (admits.values _ trivial)

private theorem requested_failsOnly : FailsOnly allowed i.requested := by
  -- A requested type can only be of the wrong kind.
  unfold Instruction.requested
  split
  · split
    · exact FailsOnly.error (admits.values _ trivial)
    · exact FailsOnly.ok _ _
  · exact FailsOnly.error (admits.values _ trivial)

/-- A branch fails on its target, on one of its sources, or because these cannot be compared. -/
theorem branching_failsOnly {wanted : Bool} (target : FailsOnly allowed (i.target labels)) :
    FailsOnly allowed (i.branching labels frames wanted) := by
  -- The parts are reduced one after another, and each may fail in its own way.
  unfold Instruction.branching
  apply FailsOnly.bind target
  intro position
  apply FailsOnly.bind (value_failsOnly admits 1)
  intro a
  apply FailsOnly.bind (value_failsOnly admits 2)
  intro b
  split
  · exact FailsOnly.error (admits.values _ trivial)
  · exact FailsOnly.ok _ _

private theorem combining_failsOnly (opcode : Opcode) : FailsOnly allowed (do
    let a ← i.value frames 1
    let b ← i.value frames 2
    i.assigning (← opcode.combine a b)) := by
  -- Both sources are read before anything is computed.
  apply FailsOnly.bind (value_failsOnly admits 1)
  intro a
  apply FailsOnly.bind (value_failsOnly admits 2)
  intro b
  apply FailsOnly.bind ((Opcode.combine_failsOnly a b).weaken admits.values)
  exact assigning_failsOnly admits

private theorem transforming_failsOnly (opcode : Opcode) :
    FailsOnly allowed (do i.assigning (← opcode.transform (← i.value frames 1))) := by
  -- There is one source only.
  apply FailsOnly.bind (value_failsOnly admits 1)
  intro a
  apply FailsOnly.bind ((Opcode.transform_failsOnly a).weaken admits.values)
  exact assigning_failsOnly admits

/-- Reducing an instruction fails on its operands, or on what is computed from their values. -/
theorem effect_failsOnly (target : i.opcode.isJump = true → FailsOnly allowed (i.target labels)) :
    FailsOnly allowed (i.effect labels frames) := by
  -- The operations fall into groups that read their operands in the same way.
  cases op : i.opcode with
  | createFrame | pushFrame | popFrame | ret | label | dump =>
    simp only [Instruction.effect, op]
    exact FailsOnly.ok _ _
  | call | jump =>
    simp only [Instruction.effect, op]
    exact FailsOnly.bind (target (by rw [op]; rfl)) fun _ => FailsOnly.ok _ _
  | jumpIfEq | jumpIfNeq =>
    simp only [Instruction.effect, op]
    exact branching_failsOnly admits (target (by rw [op]; rfl))
  | add | sub | mul | idiv | lt | gt | eq | and | or | stri2int | concat | getChar =>
    simp only [Instruction.effect, op]
    exact combining_failsOnly admits _
  | not | int2char | strlen =>
    simp only [Instruction.effect, op]
    exact transforming_failsOnly admits _
  | pushs | write | dprint =>
    simp only [Instruction.effect, op]
    exact FailsOnly.bind (value_failsOnly admits 0) fun _ => FailsOnly.ok _ _
  | defVar | pops =>
    simp only [Instruction.effect, op]
    exact FailsOnly.bind (destination_failsOnly admits) fun _ => FailsOnly.ok _ _
  | move =>
    simp only [Instruction.effect, op]
    exact FailsOnly.bind (value_failsOnly admits 1) (assigning_failsOnly admits)
  | setChar =>
    simp only [Instruction.effect, op]
    apply FailsOnly.bind (value_failsOnly admits 0)
    intro text
    apply FailsOnly.bind (value_failsOnly admits 1)
    intro index
    apply FailsOnly.bind (value_failsOnly admits 2)
    intro replacement
    apply FailsOnly.bind ((replaceChar_failsOnly text index replacement).weaken admits.values)
    exact assigning_failsOnly admits
  | read =>
    simp only [Instruction.effect, op]
    apply FailsOnly.bind (requested_failsOnly admits)
    intro t
    exact FailsOnly.bind (destination_failsOnly admits) fun _ => FailsOnly.ok _ _
  | type =>
    simp only [Instruction.effect, op]
    exact FailsOnly.bind (typeOf_failsOnly admits 1) fun t => assigning_failsOnly admits _
  | exit =>
    simp only [Instruction.effect, op]
    exact FailsOnly.bind (value_failsOnly admits 0) (exiting_failsOnly admits)

end Instruction

end ThreeAddress
