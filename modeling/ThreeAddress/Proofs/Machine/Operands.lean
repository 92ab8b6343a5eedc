import ThreeAddress.Proofs.Machine.Effects

/-! What an effect says about the operands that it was made from: its target and its variable. -/

namespace ThreeAddress

/-- The position at which an effect continues, if it is one that a label tells. -/
def Effect.target? : Effect → Option Nat
  | call position => some position
  | jump position => some position
  | _ => none

namespace Instruction

variable {i : Instruction} {labels : Labels} {frames : Frames} {effect : Effect}

/-- A target is found exactly for a label that the table knows. -/
theorem target_eq_ok_iff {position : Nat} : i.target labels = .ok position ↔
    ∃ name, i.operands.head? = some (.label name) ∧ labels.lookup name = some position := by
  -- The label in front is looked up, and any other operand is refused.
  unfold Instruction.target
  split
  · rename_i name rest operands
    split
    · rename_i absent
      simp [operands, absent]
    · rename_i found known
      simp [operands, known]
  · -- An operand of another kind is no target, and neither is no operand.
    rename_i other
    simp only [reduceCtorEq, false_iff]
    rintro ⟨name, first, _⟩
    obtain ⟨rest, operands⟩ := List.head?_eq_some_iff.mp first
    exact other name rest operands

/-- A destination is found exactly where the first operand is a variable. -/
theorem destination_eq_ok_iff {x : Variable} :
    i.destination = .ok x ↔ i.operands.head? = some (.var x) := by
  -- Anything else in first place is no destination.
  unfold Instruction.destination
  split
  · rename_i y rest operands
    simp [operands]
  · rename_i other
    simp only [reduceCtorEq, false_iff]
    intro first
    obtain ⟨rest, operands⟩ := List.head?_eq_some_iff.mp first
    exact other x rest operands

/-- An assignment is built exactly where there is a destination. -/
theorem assigning_eq_ok_iff {value : Value} :
    i.assigning value = .ok effect ↔ ∃ x, i.destination = .ok x ∧ effect = .assign x value := by
  -- Only the destination can be missing.
  unfold Instruction.assigning
  rw [bind_eq_ok_iff]
  constructor
  · rintro ⟨x, found, built⟩
    cases built
    exact ⟨x, found, rfl⟩
  · rintro ⟨x, found, rfl⟩
    exact ⟨x, found, rfl⟩

private theorem branching_target {wanted : Bool} {position : Nat}
    (reduced : i.branching labels frames wanted = .ok (.jump position)) :
    i.target labels = .ok position := by
  -- The label is looked up first, and a branch that is taken goes to its position.
  obtain ⟨target, found, reduced⟩ := bind_eq_ok_iff.mp reduced
  obtain ⟨a, _, reduced⟩ := bind_eq_ok_iff.mp reduced
  obtain ⟨b, _, reduced⟩ := bind_eq_ok_iff.mp reduced
  split at reduced
  · cases reduced
  · split at reduced
    · cases reduced
      exact found
    · cases reduced

/-- An effect that continues at a label continues where the target of the instruction is. -/
theorem effect_target {position : Nat} (reduced : i.effect labels frames = .ok effect)
    (goes : effect.target? = some position) : i.target labels = .ok position := by
  -- Only calls and jumps have such an effect.
  have kind := i.effect_mayHave labels frames effect reduced
  cases effect with
  | call target =>
    cases goes
    have op := Opcode.mayHave_call.mp kind
    simp only [Instruction.effect, op] at reduced
    obtain ⟨_, found, built⟩ := bind_eq_ok_iff.mp reduced
    cases built
    exact found
  | jump target =>
    cases goes
    rcases Opcode.mayHave_jump.mp kind with op | op | op
    · simp only [Instruction.effect, op] at reduced
      obtain ⟨_, found, built⟩ := bind_eq_ok_iff.mp reduced
      cases built
      exact found
    · simp only [Instruction.effect, op] at reduced
      exact branching_target reduced
    · simp only [Instruction.effect, op] at reduced
      exact branching_target reduced
  | _ => cases goes

/-- The label table has no part in the effect of an instruction that does not jump. -/
theorem effect_of_not_isJump (plain : i.opcode.isJump = false) (labels others : Labels)
    (frames : Frames) : i.effect others frames = i.effect labels frames := by
  -- Only the four operations that have a target look labels up.
  unfold effect
  cases op : i.opcode with
  | call | jump | jumpIfEq | jumpIfNeq => simp [op, Opcode.isJump] at plain
  | _ => rfl

end Instruction

end ThreeAddress
