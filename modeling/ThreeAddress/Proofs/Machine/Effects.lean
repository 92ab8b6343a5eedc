import ThreeAddress.Machine.Step
import ThreeAddress.Proofs.Result

/-!
Each operation has effects of its own kind, whatever its operands turn out to be, and a step carries
out the effect of the instruction that it fetches.
-/

namespace ThreeAddress

/-- The kind of effect that an operation has where it does not fail. -/
def Opcode.mayHave : Opcode → Effect → Bool
  | .createFrame, .createFrame => true
  | .pushFrame, .pushFrame => true
  | .popFrame, .popFrame => true
  | .defVar, .declare _ => true
  | .call, .call _ => true
  | .ret, .ret => true
  | .pushs, .push _ => true
  | .pops, .pop _ => true
  | .read, .receive _ _ => true
  | .write, .write stream _ => stream = .out
  | .dprint, .write stream _ => stream = .err
  | .label, .skip => true
  | .jump, .jump _ => true
  | .jumpIfEq, .jump _ => true
  | .jumpIfEq, .skip => true
  | .jumpIfNeq, .jump _ => true
  | .jumpIfNeq, .skip => true
  | .exit, .exit _ => true
  | .dump, .dump => true
  | opcode, .assign _ _ =>
    [.move, .add, .sub, .mul, .idiv, .lt, .gt, .eq, .and, .or, .not, .int2char, .stri2int, .concat,
      .strlen, .getChar, .setChar, .type].contains opcode
  | _, _ => false

namespace Opcode

variable {opcode : Opcode}

-- Every effect but an assignment comes from one operation, or from few.

@[simp] theorem mayHave_skip :
    opcode.mayHave .skip = true ↔
      opcode = .label ∨ opcode = .jumpIfEq ∨ opcode = .jumpIfNeq := by
  -- Labels do nothing, and a conditional jump does nothing if it is not taken.
  cases opcode <;>
    first | exact iff_of_true rfl (by decide) | exact iff_of_false nofun (by decide)

@[simp] theorem mayHave_createFrame :
    opcode.mayHave .createFrame = true ↔ opcode = .createFrame := by
  cases opcode <;> first | exact iff_of_true rfl rfl | exact iff_of_false nofun nofun

@[simp] theorem mayHave_pushFrame : opcode.mayHave .pushFrame = true ↔ opcode = .pushFrame := by
  cases opcode <;> first | exact iff_of_true rfl rfl | exact iff_of_false nofun nofun

@[simp] theorem mayHave_popFrame : opcode.mayHave .popFrame = true ↔ opcode = .popFrame := by
  cases opcode <;> first | exact iff_of_true rfl rfl | exact iff_of_false nofun nofun

@[simp] theorem mayHave_declare {x : Variable} :
    opcode.mayHave (.declare x) = true ↔ opcode = .defVar := by
  cases opcode <;> first | exact iff_of_true rfl rfl | exact iff_of_false nofun nofun

@[simp] theorem mayHave_receive {x : Variable} {t : DataType} :
    opcode.mayHave (.receive x t) = true ↔ opcode = .read := by
  cases opcode <;> first | exact iff_of_true rfl rfl | exact iff_of_false nofun nofun

@[simp] theorem mayHave_push {value : Value} :
    opcode.mayHave (.push value) = true ↔ opcode = .pushs := by
  cases opcode <;> first | exact iff_of_true rfl rfl | exact iff_of_false nofun nofun

@[simp] theorem mayHave_pop {x : Variable} :
    opcode.mayHave (.pop x) = true ↔ opcode = .pops := by
  cases opcode <;> first | exact iff_of_true rfl rfl | exact iff_of_false nofun nofun

@[simp] theorem mayHave_call {target : Nat} :
    opcode.mayHave (.call target) = true ↔ opcode = .call := by
  cases opcode <;> first | exact iff_of_true rfl rfl | exact iff_of_false nofun nofun

@[simp] theorem mayHave_ret : opcode.mayHave .ret = true ↔ opcode = .ret := by
  cases opcode <;> first | exact iff_of_true rfl rfl | exact iff_of_false nofun nofun

@[simp] theorem mayHave_jump {target : Nat} :
    opcode.mayHave (.jump target) = true ↔
      opcode = .jump ∨ opcode = .jumpIfEq ∨ opcode = .jumpIfNeq := by
  -- Besides a plain jump, only the two conditional ones go elsewhere.
  cases opcode <;>
    first | exact iff_of_true rfl (by decide) | exact iff_of_false nofun (by decide)

@[simp] theorem mayHave_write {stream : Stream} {text : String} :
    opcode.mayHave (.write stream text) = true ↔
      opcode = .write ∧ stream = .out ∨ opcode = .dprint ∧ stream = .err := by
  -- Each of the two operations has a stream of its own.
  cases opcode <;> cases stream <;>
    first | exact iff_of_true rfl (by decide) | exact iff_of_false nofun (by decide)

@[simp] theorem mayHave_dump : opcode.mayHave .dump = true ↔ opcode = .dump := by
  cases opcode <;> first | exact iff_of_true rfl rfl | exact iff_of_false nofun nofun

@[simp] theorem mayHave_exit {code : Nat} :
    opcode.mayHave (.exit code) = true ↔ opcode = .exit := by
  cases opcode <;> first | exact iff_of_true rfl rfl | exact iff_of_false nofun nofun

end Opcode

namespace Instruction

variable {i : Instruction}

private theorem assigning_yields {allowed : Effect → Prop}
    (fine : ∀ x value, allowed (.assign x value)) (value : Value) :
    YieldsOnly allowed (i.assigning value) :=
  -- Once the destination is found, there is one effect for the value.
  YieldsOnly.bind fun x => YieldsOnly.ok (fine x value)

private theorem branching_yields {allowed : Effect → Prop} {labels : Labels} {frames : Frames}
    {wanted : Bool} (jumps : ∀ position, allowed (.jump position)) (skips : allowed .skip) :
    YieldsOnly allowed (i.branching labels frames wanted) := by
  -- The label and both sources come first, and the comparison decides.
  unfold Instruction.branching
  refine YieldsOnly.bind fun position => YieldsOnly.bind fun a => YieldsOnly.bind fun b => ?_
  split
  · exact YieldsOnly.error _ _
  · refine YieldsOnly.ok ?_
    split
    · exact jumps position
    · exact skips

private theorem exiting_yields {allowed : Effect → Prop} (fine : ∀ code, allowed (.exit code))
    (value : Value) : YieldsOnly allowed (i.exiting value) := by
  -- Only a number in range ends a run.
  unfold Instruction.exiting
  split
  · split
    · exact YieldsOnly.ok (fine _)
    · exact YieldsOnly.error _ _
  · exact YieldsOnly.error _ _

/-- A reduced instruction has an effect of the kind of its operation. -/
theorem effect_mayHave (labels : Labels) (frames : Frames) :
    YieldsOnly (fun effect => i.opcode.mayHave effect = true) (i.effect labels frames) := by
  -- Operands decide only about details, so what they are reduced to can be left open.
  cases op : i.opcode with
  | createFrame | pushFrame | popFrame | ret | label | dump =>
    simp only [Instruction.effect, op]
    exact YieldsOnly.ok rfl
  | defVar | call | pushs | pops | write | dprint | jump =>
    simp only [Instruction.effect, op]
    exact YieldsOnly.bind fun _ => YieldsOnly.ok rfl
  | read =>
    simp only [Instruction.effect, op]
    exact YieldsOnly.bind fun _ => YieldsOnly.bind fun _ => YieldsOnly.ok rfl
  | move | type =>
    simp only [Instruction.effect, op]
    exact YieldsOnly.bind fun _ => assigning_yields (fun _ _ => rfl) _
  | not | int2char | strlen =>
    simp only [Instruction.effect, op]
    exact YieldsOnly.bind fun _ => YieldsOnly.bind (assigning_yields fun _ _ => rfl)
  | add | sub | mul | idiv | lt | gt | eq | and | or | stri2int | concat | getChar =>
    simp only [Instruction.effect, op]
    refine YieldsOnly.bind fun a => YieldsOnly.bind fun b => ?_
    exact YieldsOnly.bind (assigning_yields fun _ _ => rfl)
  | setChar =>
    simp only [Instruction.effect, op]
    refine YieldsOnly.bind fun text => YieldsOnly.bind fun index => ?_
    refine YieldsOnly.bind fun replacement => YieldsOnly.bind ?_
    exact assigning_yields fun _ _ => rfl
  | jumpIfEq | jumpIfNeq =>
    simp only [Instruction.effect, op]
    exact branching_yields (fun _ => rfl) rfl
  | exit =>
    simp only [Instruction.effect, op]
    exact YieldsOnly.bind (exiting_yields fun _ => rfl)

end Instruction

namespace Machine

variable {devices : Devices} {image : Image} {m : Machine} {i : Instruction}

/-- A step with an instruction that has an effect carries it out behind the instruction. -/
theorem advance_of_effect {effect : Effect} (fetched : image.code[m.pc]? = some i)
    (reduced : i.effect image.labels m.frames = .ok effect) :
    m.advance devices image =
      ({ m with pc := m.pc + 1 }.perform devices i.order effect).complete i.opcode := by
  -- The instruction is fetched, reduced to its effect and carried out, in this sequence.
  unfold Machine.advance Machine.step
  rw [fetched]
  dsimp only
  rw [reduced]

/-- A step with an instruction that has no effect fails with the cause, and has only fetched. -/
theorem advance_of_cause {cause : Cause} (fetched : image.code[m.pc]? = some i)
    (failed : i.effect image.labels m.frames = .error cause) :
    m.advance devices image = .fault (.raised i.order cause) { m with pc := m.pc + 1 } := by
  -- Nothing but the position was touched when the reduction failed.
  unfold Machine.advance Machine.step
  rw [fetched]
  dsimp only
  rw [failed]

end Machine

end ThreeAddress
