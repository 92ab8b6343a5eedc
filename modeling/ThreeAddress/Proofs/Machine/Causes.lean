import ThreeAddress.Proofs.Machine.Faults
import ThreeAddress.Proofs.Machine.Reduction

/-! A running program can show one flaw only: a jump to a label that no instruction defines. -/

namespace ThreeAddress

/-- A cause that is no flaw of the program, but lies in the state that it has come to. -/
def Cause.Unflawed : Cause → Prop
  | flaw _ => False
  | _ => True

/-- Neither reading variables nor complaining about values finds a flaw. -/
theorem Cause.Unflawed.admits (frames : Frames) : Cause.Admits Cause.Unflawed frames where
  -- Of all causes only a flaw is excluded, and none of these is one.
  values cause ofValues := by
    cases cause with
    | flaw f => exact ofValues
    | _ => trivial
  read _ _ _ := trivial
  typeOf _ _ _ := trivial

open Cause

namespace Instruction

variable {i : Instruction}

/-- A branch finds no flaw beyond that of its target. -/
theorem branching_flaw {labels : Labels} {frames : Frames} {wanted : Bool} {flaw : Flaw}
    (failed : i.branching labels frames wanted = .error (.flaw flaw)) :
    i.target labels = .error (.flaw flaw) := by
  cases found : i.target labels with
  | error cause => simpa [Instruction.branching, found, Bind.bind, Except.bind] using failed
  | ok position =>
    -- With a target at hand, what is left are the two sources and their comparison.
    have target : FailsOnly Unflawed (i.target labels) := by
      rw [found]
      exact FailsOnly.ok _ position
    exact (branching_failsOnly (Unflawed.admits frames) target _ failed).elim

/-- Instructions that are no jumps fail for reasons that lie in the state. -/
theorem effect_unflawed (labels : Labels) (frames : Frames) (plain : i.opcode.isJump = false) :
    FailsOnly Unflawed (i.effect labels frames) := by
  -- Without a target there is nothing to be looked up.
  apply effect_failsOnly (Unflawed.admits frames)
  intro jumps
  rw [plain] at jumps
  cases jumps

/-- Jumps find the flaw of their target and no other. -/
theorem effect_flaw {labels : Labels} {frames : Frames} {flaw : Flaw}
    (failed : i.effect labels frames = .error (.flaw flaw)) :
    i.opcode.isJump = true ∧ i.target labels = .error (.flaw flaw) := by
  -- All but jumps are ruled out, and jumps look their target up before all else.
  by_cases plain : i.opcode.isJump = false
  · exact (effect_unflawed labels frames plain _ failed).elim
  · refine ⟨by simpa using plain, ?_⟩
    cases op : i.opcode with
    | jumpIfEq | jumpIfNeq =>
      simp only [Instruction.effect, op] at failed
      exact branching_flaw failed
    | call | jump =>
      simp only [Instruction.effect, op] at failed
      cases found : i.target labels with
      | error cause => simpa [found, Bind.bind, Except.bind] using failed
      | ok position => simp [found, Bind.bind, Except.bind, Pure.pure, Except.pure] at failed
    | _ => simp [op, Opcode.isJump] at plain

/-- The flaw of a target is that no instruction defines the label. -/
theorem target_flaw {labels : Labels} {flaw : Flaw} (jumps : i.opcode.isJump = true)
    (failed : i.target labels = .error (.flaw flaw)) :
    ∃ name, i.targetLabel? = some name ∧ labels.lookup name = none ∧
      flaw = .undefinedLabel name := by
  -- A label operand is what a jump names as its target, so only the lookup can have failed.
  unfold Instruction.target at failed
  split at failed
  · rename_i name rest operands
    split at failed
    · rename_i missing
      cases failed
      exact ⟨name, by simp [targetLabel?, label?, jumps, operands], missing, rfl⟩
    · cases failed
  · cases failed

end Instruction

open Instruction

/-- A step that finds a flaw is a jump to a label that is missing from the table. -/
theorem Machine.advance_flaw {devices : Devices} {image : Image} {m after : Machine}
    {order : UInt64} {flaw : Flaw}
    (failed : m.advance devices image = .fault (.raised order (.flaw flaw)) after) :
    ∃ i name, image.code[m.pc]? = some i ∧ i.order = order ∧ i.targetLabel? = some name ∧
      image.labels.lookup name = none ∧ flaw = .undefinedLabel name := by
  -- A flaw is found in reducing an instruction, and there only in its target.
  obtain ⟨i, fetched, failed⟩ := advance_fault failed
  rcases step_fault failed with ⟨cause, refused, same, _⟩ | performed
  · obtain ⟨rfl, rfl⟩ := Fault.raised.inj same
    obtain ⟨jumps, missing⟩ := effect_flaw refused
    obtain ⟨name, target, absent, named⟩ := target_flaw jumps missing
    exact ⟨i, name, fetched, rfl, target, absent, named⟩
  · -- Carrying out an effect never looks at a label.
    cases performed

end ThreeAddress
