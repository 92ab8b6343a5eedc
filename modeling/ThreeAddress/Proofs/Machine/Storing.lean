import ThreeAddress.Proofs.Machine.Effects
import ThreeAddress.Proofs.Machine.Faults
import ThreeAddress.Proofs.Machine.Operands
import ThreeAddress.Proofs.Machine.Slots

/-!
Results are stored. An instruction that computes a result from the values of its sources puts it
into its destination, and fails without a trace where there is no result or no such variable.
-/

namespace ThreeAddress

/-- How an instruction ends that computes a result, or a cause to fail, for a variable. -/
structure Machine.Stores (devices : Devices) (image : Image) (m : Machine) (i : Instruction)
    (x : Variable) (result : Except Cause Value) : Prop where
  /-- The variable has to be declared, and need not have a value. -/
  stored : ∀ value type, result = .ok value → m.frames.typeOf x = .ok type →
    ∃ frames, m.frames.assign x value = .ok frames ∧ frames.read x = .ok value ∧
      m.advance devices image = .next { m with
        frames, pc := m.pc + 1, executed := m.executed + 1, last := some i.opcode }
  /-- A variable that is not declared is found out about after the result. -/
  unstored : ∀ value e, result = .ok value → m.frames.typeOf x = .error e →
    m.advance devices image = .fault (.raised i.order (.frame e)) { m with pc := m.pc + 1 }
  refused : ∀ cause, result = .error cause →
    m.advance devices image = .fault (.raised i.order cause) { m with pc := m.pc + 1 }

/-- The operations that combine the values of two sources. -/
def Opcode.combining : List Opcode :=
  [.add, .sub, .mul, .idiv, .lt, .gt, .eq, .and, .or, .stri2int, .concat, .getChar]

/-- The operations that transform the value of one source. -/
def Opcode.transforming : List Opcode :=
  [.not, .int2char, .strlen]

namespace Instruction

variable {i : Instruction} {labels : Labels} {frames : Frames} {a b c : Value}

/-- The effect of an operation on two values is to assign what they combine to. -/
theorem effect_of_combining (op : i.opcode ∈ Opcode.combining)
    (first : i.value frames 1 = .ok a) (second : i.value frames 2 = .ok b) :
    i.effect labels frames = i.opcode.combine a b >>= i.assigning := by
  -- All of them read their sources before they look for the destination.
  simp only [Opcode.combining, List.mem_cons, List.not_mem_nil, or_false] at op
  rcases op with op | op | op | op | op | op | op | op | op | op | op | op
  all_goals
    rw [Instruction.effect, op]
    dsimp only
    rw [first, second]
    rfl

/-- The effect of an operation on one value is to assign what it is transformed to. -/
theorem effect_of_transforming (op : i.opcode ∈ Opcode.transforming)
    (source : i.value frames 1 = .ok a) :
    i.effect labels frames = i.opcode.transform a >>= i.assigning := by
  -- Each of these operations reads one source and hands on what it makes of it.
  simp only [Opcode.transforming, List.mem_cons, List.not_mem_nil, or_false] at op
  rcases op with op | op | op
  all_goals
    rw [Instruction.effect, op]
    dsimp only
    rw [source]
    rfl

/-- The effect of replacing a character is to assign the text with the character replaced. -/
theorem effect_of_replacing (op : i.opcode = .setChar) (old : i.value frames 0 = .ok a)
    (place : i.value frames 1 = .ok b) (new : i.value frames 2 = .ok c) :
    i.effect labels frames = replaceChar a b c >>= i.assigning := by
  -- The destination is read like a source, as the text that is to change.
  rw [Instruction.effect, op]
  dsimp only
  rw [old, place, new]
  rfl

end Instruction

namespace Machine

variable {devices : Devices} {image : Image} {m : Machine} {i : Instruction} {x : Variable}
  {result : Except Cause Value}

/-- An instruction that has no result fails with the cause, and has only been fetched. -/
theorem advance_of_refusal {cause : Cause} (fetched : image.code[m.pc]? = some i)
    (reduced : i.effect image.labels m.frames = result >>= i.assigning)
    (refused : result = .error cause) :
    m.advance devices image = .fault (.raised i.order cause) { m with pc := m.pc + 1 } := by
  -- The cause comes up before anything is assigned.
  rw [refused] at reduced
  exact advance_of_cause fetched reduced

/-- An instruction whose effect is to assign its result stores it in its destination. -/
theorem stores (fetched : image.code[m.pc]? = some i) (counted : i.opcode ≠ .label)
    (destination : i.operands.head? = some (.var x))
    (reduced : i.effect image.labels m.frames = result >>= i.assigning) :
    m.Stores devices image i x result := by
  -- With a result at hand, what is left to do is to assign it.
  have assigns {value : Value} (computed : result = .ok value) :
      i.effect image.labels m.frames = .ok (.assign x value) := by
    rw [reduced, computed]
    exact Instruction.assigning_eq_ok_iff.mpr
      ⟨x, Instruction.destination_eq_ok_iff.mpr destination, rfl⟩
  constructor
  · intro value type computed declared
    obtain ⟨frames, assigned⟩ := Frames.assign_of_typeOf declared value
    have held := (Frames.assign_spec assigned).2.1
    refine ⟨frames, assigned, Frames.read_eq_ok_iff.mpr (Frames.slot_eq_ok_iff.mpr held), ?_⟩
    rw [advance_of_effect fetched (assigns computed), Machine.perform, assigned, Machine.setFrames,
      Outcome.complete, Machine.complete, if_neg counted]
  · intro value e computed unknown
    -- What has no type cannot be assigned either, and for the same reason.
    have failed : m.frames.assign x value = .error e :=
      Frames.assign_eq_error_iff.mpr (Frames.typeOf_eq_error_iff.mp unknown)
    rw [advance_of_effect fetched (assigns computed), Machine.perform, failed, Machine.setFrames,
      Outcome.complete]
  · intro cause refused
    exact advance_of_refusal fetched reduced refused

variable {a b c : Value}

/-- What two values combine to is stored. -/
theorem stores_combined (fetched : image.code[m.pc]? = some i)
    (op : i.opcode ∈ Opcode.combining) (destination : i.operands.head? = some (.var x))
    (first : i.value m.frames 1 = .ok a) (second : i.value m.frames 2 = .ok b) :
    m.Stores devices image i x (i.opcode.combine a b) := by
  -- These operations count as completed, and their effect is known.
  have counted : i.opcode ≠ .label := ne_of_mem_of_not_mem op (by decide)
  exact stores fetched counted destination (Instruction.effect_of_combining op first second)

/-- What a value is transformed to is stored. -/
theorem stores_transformed (fetched : image.code[m.pc]? = some i)
    (op : i.opcode ∈ Opcode.transforming) (destination : i.operands.head? = some (.var x))
    (source : i.value m.frames 1 = .ok a) :
    m.Stores devices image i x (i.opcode.transform a) := by
  -- These operations count as completed, and their effect is known.
  have counted : i.opcode ≠ .label := ne_of_mem_of_not_mem op (by decide)
  exact stores fetched counted destination (Instruction.effect_of_transforming op source)

/-- A text with a character replaced is stored where the text was. -/
theorem stores_replaced (fetched : image.code[m.pc]? = some i) (op : i.opcode = .setChar)
    (destination : i.operands.head? = some (.var x)) (old : i.value m.frames 0 = .ok a)
    (place : i.value m.frames 1 = .ok b) (new : i.value m.frames 2 = .ok c) :
    m.Stores devices image i x (replaceChar a b c) := by
  -- The operation counts as completed, and its effect is known.
  have counted : i.opcode ≠ .label := by rw [op]; decide
  exact stores fetched counted destination (Instruction.effect_of_replacing op old place new)

/-- A machine whose only variable is global and has no value yet. -/
def expectant : Machine :=
  { fresh [] with frames := { globals := ⟨[("x", none)]⟩, temporary := none, locals := [] } }

end Machine

end ThreeAddress
