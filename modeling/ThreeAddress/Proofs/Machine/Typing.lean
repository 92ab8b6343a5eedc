import ThreeAddress.Proofs.Language.Signature
import ThreeAddress.Proofs.Machine.Faults
import ThreeAddress.Proofs.Machine.Operands

/-!
Complaints about types. Where operands fit their slots, none is of the wrong kind, so that only the
values of operands can be of the wrong type, and many operations take values of every type.
-/

namespace ThreeAddress

/-- A cause that is no complaint about types. -/
def Cause.WellTyped : Cause → Prop
  | wrongTypes _ => False
  | _ => True

/-- The operations that take values of every type, if they take any. -/
def Opcode.isUntyped : Opcode → Bool
  | move | createFrame | pushFrame | popFrame | defVar | call | ret | pushs | pops | write | type
  | label | jump | dprint | dump => true
  | _ => false

/-- The slots whose operands have a value. -/
def Slot.hasValue : Slot → Bool
  | var | symbol => true
  | label | type => false

private theorem FailsOnly.mapError_wellTyped {α : Type} (result : Except FrameError α) :
    FailsOnly Cause.WellTyped (result.mapError .frame) := by
  -- Refused frame operations have nothing to do with types.
  cases result with
  | error e => exact FailsOnly.error trivial
  | ok a => exact FailsOnly.ok _ a

namespace Instruction

variable {i : Instruction}

private theorem isSymbol_of_slot (fits : i.misfit? = none) {index : Nat} {slot : Slot}
    (asked : i.opcode.signature[index]? = some slot) (valued : slot.hasValue = true) :
    ∃ o, i.operands[index]? = some o ∧ o.isSymbol = true := by
  -- Variables are symbols, too.
  obtain ⟨o, found, accepted⟩ := operand_of_slot fits asked
  refine ⟨o, found, ?_⟩
  cases slot with
  | var =>
    cases o with
    | var x => rfl
    | literal | label | type => cases accepted
  | symbol => exact accepted
  | label | type => cases valued

/-- The operand in a slot for a value is a symbol, so that reading it fails on its frame only. -/
theorem value_wellTyped (fits : i.misfit? = none) {index : Nat} {slot : Slot}
    (asked : i.opcode.signature[index]? = some slot) (valued : slot.hasValue = true)
    (frames : Frames) : FailsOnly Cause.WellTyped (i.value frames index) := by
  -- A literal is its own value, and a variable is read from its frame.
  obtain ⟨o, found, symbol⟩ := isSymbol_of_slot fits asked valued
  unfold Instruction.value
  rw [found]
  cases o with
  | literal value => exact FailsOnly.ok _ value
  | var x => exact FailsOnly.mapError_wellTyped _
  | label | type => cases symbol

/-- The operand in a slot for a value is a symbol, so that its type can be asked for. -/
theorem typeOf_wellTyped (fits : i.misfit? = none) {index : Nat} {slot : Slot}
    (asked : i.opcode.signature[index]? = some slot) (valued : slot.hasValue = true)
    (frames : Frames) : FailsOnly Cause.WellTyped (i.typeOf frames index) := by
  -- A literal has its type, and a variable is asked for it in its frame.
  obtain ⟨o, found, symbol⟩ := isSymbol_of_slot fits asked valued
  unfold Instruction.typeOf
  rw [found]
  cases o with
  | literal value => exact FailsOnly.ok _ _
  | var x => exact FailsOnly.mapError_wellTyped _
  | label | type => cases symbol

/-- The operand in a leading slot for a variable is a destination. -/
theorem destination_of_slot (fits : i.misfit? = none)
    (asked : i.opcode.signature[0]? = some .var) : ∃ x, i.destination = .ok x := by
  -- Such a slot accepts nothing but variables.
  obtain ⟨o, found, accepted⟩ := operand_of_slot fits asked
  cases o with
  | var x => exact ⟨x, destination_eq_ok_iff.mpr (by rw [List.head?_eq_getElem?, found])⟩
  | literal | label | type => cases accepted

/-- The operand in a leading slot for a label is a target, though it may be unknown. -/
theorem target_wellTyped (fits : i.misfit? = none) (asked : i.opcode.signature[0]? = some .label)
    (labels : Labels) : FailsOnly Cause.WellTyped (i.target labels) := by
  -- Such a slot accepts nothing but labels, and only their lookup is left to fail.
  obtain ⟨o, found, accepted⟩ := operand_of_slot fits asked
  cases o with
  | label name =>
    rw [← List.head?_eq_getElem?] at found
    obtain ⟨rest, operands⟩ := List.head?_eq_some_iff.mp found
    unfold Instruction.target
    rw [operands]
    dsimp only
    split
    · exact FailsOnly.error trivial
    · exact FailsOnly.ok _ _
  | literal | var | type => cases accepted

/-- What an operation asks of its operands never meets one of the wrong kind, or none. -/
structure InPlace (i : Instruction) (labels : Labels) : Prop where
  value : ∀ (index : Nat) slot, i.opcode.signature[index]? = some slot → slot.hasValue = true →
    ∀ frames opcode, i.value frames index ≠ .error (.wrongTypes opcode)
  typeOf : ∀ (index : Nat) slot, i.opcode.signature[index]? = some slot → slot.hasValue = true →
    ∀ frames opcode, i.typeOf frames index ≠ .error (.wrongTypes opcode)
  destination : i.opcode.signature[0]? = some .var → ∃ x, i.destination = .ok x
  target : i.opcode.signature[0]? = some .label →
    ∀ opcode, i.target labels ≠ .error (.wrongTypes opcode)

/-- Operands that fit are in place for whatever the operation asks of them. -/
theorem inPlace_of_fits (fits : i.misfit? = none) (labels : Labels) : i.InPlace labels where
  value _ _ asked valued frames _ failed := value_wellTyped fits asked valued frames _ failed
  typeOf _ _ asked valued frames _ failed := typeOf_wellTyped fits asked valued frames _ failed
  destination asked := destination_of_slot fits asked
  target asked _ failed := target_wellTyped fits asked labels _ failed

private theorem assigning_wellTyped (fits : i.misfit? = none)
    (asked : i.opcode.signature[0]? = some .var) (value : Value) :
    FailsOnly Cause.WellTyped (i.assigning value) := by
  -- With a destination at hand, an assignment cannot fail at all.
  obtain ⟨x, found⟩ := destination_of_slot fits asked
  unfold Instruction.assigning
  rw [found]
  exact FailsOnly.ok _ _

/-- An operation that takes values of every type has its effect, or fails for another reason. -/
theorem effect_wellTyped (fits : i.misfit? = none) (untyped : i.opcode.isUntyped = true)
    (labels : Labels) (frames : Frames) :
    FailsOnly Cause.WellTyped (i.effect labels frames) := by
  -- What can fail is finding the operands, and each has a slot of its own.
  cases op : i.opcode with
  | createFrame | pushFrame | popFrame | ret | label | dump =>
    simp only [Instruction.effect, op]
    exact FailsOnly.ok _ _
  | pushs | write | dprint =>
    simp only [Instruction.effect, op]
    have asked : i.opcode.signature[0]? = some .symbol := by rw [op]; rfl
    have read := value_wellTyped fits asked rfl frames
    exact FailsOnly.bind read fun _ => FailsOnly.ok _ _
  | call | jump =>
    simp only [Instruction.effect, op]
    have found := target_wellTyped fits (by rw [op]; rfl) labels
    exact FailsOnly.bind found fun _ => FailsOnly.ok _ _
  | defVar | pops =>
    simp only [Instruction.effect, op]
    obtain ⟨x, found⟩ := destination_of_slot fits (by rw [op]; rfl)
    rw [found]
    exact FailsOnly.ok _ _
  | move =>
    simp only [Instruction.effect, op]
    have asked : i.opcode.signature[1]? = some .symbol := by rw [op]; rfl
    have read := value_wellTyped fits asked rfl frames
    exact FailsOnly.bind read fun value => assigning_wellTyped fits (by rw [op]; rfl) value
  | type =>
    simp only [Instruction.effect, op]
    have asked : i.opcode.signature[1]? = some .symbol := by rw [op]; rfl
    have read := typeOf_wellTyped fits asked rfl frames
    exact FailsOnly.bind read fun t => assigning_wellTyped fits (by rw [op]; rfl) _
  | _ => simp [op, Opcode.isUntyped] at untyped

end Instruction

/-- A step complains about types only for an operation that does not take them all. -/
theorem Machine.advance_wellTyped {devices : Devices} {image : Image} {m after : Machine}
    {i : Instruction} (fetched : image.code[m.pc]? = some i) (fits : i.misfit? = none)
    (untyped : i.opcode.isUntyped = true) {order : UInt64} {cause : Cause}
    (failed : m.advance devices image = .fault (.raised order cause) after) : cause.WellTyped := by
  -- The step fails in reducing the instruction or in carrying out its effect.
  obtain ⟨j, same, failed⟩ := advance_fault failed
  obtain rfl : i = j := Option.some.inj (fetched.symm.trans same)
  rcases step_fault failed with ⟨_, refused, named, _⟩ | performed
  · obtain ⟨_, rfl⟩ := Fault.raised.inj named
    exact i.effect_wellTyped fits untyped _ _ _ refused
  · -- Carrying out an effect fails on frames, stacks and streams.
    cases performed <;> trivial

end ThreeAddress
