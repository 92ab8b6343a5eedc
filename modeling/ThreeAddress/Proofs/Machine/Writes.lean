import ThreeAddress.Machine.Step
import ThreeAddress.Proofs.Machine.Effects

/-! Which steps write: only a text to write and a dump reach the console. -/

namespace ThreeAddress

/-- The machine that an outcome shows. -/
def Outcome.machine : Outcome → Machine
  | next m => m
  | exit _ m => m
  | fault _ m => m

/-- An effect is quiet if it has nothing to write. -/
def Effect.isQuiet : Effect → Bool
  | write _ _ => false
  | dump => false
  | _ => true

namespace Machine

variable {m : Machine} {order : UInt64}

private theorem setFrames_console (result : Except FrameError Frames) :
    (m.setFrames order result).machine.console = m.console := by
  -- Frames have nothing to do with the console.
  cases result <;> rfl

/-- A quiet effect leaves the console alone, whether it succeeds or not. -/
theorem perform_console (devices : Devices) {effect : Effect} (quiet : effect.isQuiet = true) :
    (m.perform devices order effect).machine.console = m.console := by
  -- Most effects only install frames, and those that take a value first keep the console, too.
  cases effect with
  | skip | createFrame | push | call | jump | exit => rfl
  | pushFrame | popFrame | declare | assign => exact setFrames_console _
  | receive x t =>
    simp only [Machine.perform, Machine.receive]
    split
    · rfl
    · exact setFrames_console _
  | pop x =>
    simp only [Machine.perform, Machine.popInto]
    split
    · rfl
    · split
      · rfl
      · exact setFrames_console _
  | ret =>
    simp only [Machine.perform, Machine.backToCaller]
    split <;> rfl
  | write stream text => cases quiet
  | dump => cases quiet

/-- What is written to a machine is written to its console, whether it is taken or not. -/
theorem console_write (devices : Devices) (stream : Stream) (text : String) :
    (m.write devices stream text).machine.console = (m.console.write devices stream text).2 := by
  -- A refused write is counted, and the machine keeps the count.
  unfold Machine.write
  split <;> rename_i written <;> rw [written] <;> rfl

end Machine

/-- Counting an instruction as completed leaves the console alone. -/
@[simp] theorem Outcome.console_complete (outcome : Outcome) (opcode : Opcode) :
    (outcome.complete opcode).machine.console = outcome.machine.console := by
  cases outcome <;> rfl

/-- Only the operation that dumps has a dump for its effect. -/
theorem Instruction.opcode_of_dump {i : Instruction} {labels : Labels} {frames : Frames}
    (dumps : i.effect labels frames = .ok .dump) : i.opcode = .dump := by
  -- The table of effects has a dump for one operation.
  have kind := i.effect_mayHave labels frames .dump dumps
  revert kind
  cases i.opcode <;> simp [Opcode.mayHave]

end ThreeAddress
