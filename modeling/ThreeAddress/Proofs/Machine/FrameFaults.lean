import ThreeAddress.Proofs.Machine.Faults
import ThreeAddress.Proofs.Machine.Reduction
import ThreeAddress.Proofs.Machine.Slots

/-!
Frame errors tell the truth. Whatever step raises one, the frames that the step found are as the
error says: a frame is missing, a name is not declared, is declared already, or has no value.
-/

namespace ThreeAddress

/-- What a frame error says about the frames that it arises from. -/
def FrameError.TrueOf (s : Frames) : FrameError → Prop
  | missing tag => s.at? tag.place = none
  | undeclared x => (s.at? x.frame.place).isSome = true ∧ s.held? x.frame.place x.name = none
  | redeclared x => ∃ held, s.held? x.frame.place x.name = some held
  | unassigned x => s.held? x.frame.place x.name = some none

/-- What a cause says about frames, which is nothing unless it is a frame error. -/
def Cause.TrueOf (s : Frames) : Cause → Prop
  | frame e => e.TrueOf s
  | _ => True

namespace Frames

variable {s : Frames} {x : Variable} {e : FrameError}

/-- The reason for which a variable has no slot is true. -/
theorem Lacks.trueOf (lacking : s.Lacks x e) : e.TrueOf s := by
  -- Either the frame is missing or the name is missing in it, and the error says which.
  cases lacking with
  | frame empty => exact empty
  | name present absent =>
    refine ⟨by rw [present]; rfl, ?_⟩
    rw [held?, present]
    exact absent

/-- Looking for a slot fails with the truth. -/
theorem slot_failsOnly (s : Frames) (x : Variable) : FailsOnly (FrameError.TrueOf s) (s.slot x) :=
  fun _ failed => (slot_eq_error_iff.mp failed).trueOf

/-- Asking for a type fails with the truth. -/
theorem typeOf_failsOnly (s : Frames) (x : Variable) :
    FailsOnly (FrameError.TrueOf s) (s.typeOf x) :=
  fun e failed => slot_failsOnly s x e (typeOf_eq_error_iff.mp failed)

/-- Reading fails with the truth. -/
theorem read_failsOnly (s : Frames) (x : Variable) :
    FailsOnly (FrameError.TrueOf s) (s.read x) := by
  -- A slot is missing, or it is there and empty.
  intro e failed
  rcases read_eq_error_iff.mp failed with lacking | ⟨found, rfl⟩
  · exact slot_failsOnly s x e lacking
  · exact slot_eq_ok_iff.mp found

/-- Assigning fails with the truth. -/
theorem assign_failsOnly (s : Frames) (x : Variable) (value : Value) :
    FailsOnly (FrameError.TrueOf s) (s.assign x value) :=
  fun e failed => slot_failsOnly s x e (assign_eq_error_iff.mp failed)

/-- Declaring fails with the truth. -/
theorem declare_failsOnly (s : Frames) (x : Variable) :
    FailsOnly (FrameError.TrueOf s) (s.declare x) := by
  -- A frame is missing, or the name is in it already.
  intro e failed
  rcases declare_eq_error_iff.mp failed with ⟨_, lacking⟩ | ⟨rfl, held, found⟩
  · exact slot_failsOnly s x e lacking
  · exact ⟨held, slot_eq_ok_iff.mp found⟩

/-- Suspending fails with the truth. -/
theorem push_failsOnly (s : Frames) : FailsOnly (FrameError.TrueOf s) s.push := by
  -- The only refusal is for want of a temporary frame.
  unfold Frames.push
  split
  · rename_i empty
    exact FailsOnly.error empty
  · exact FailsOnly.ok _ _

/-- Resuming fails with the truth. -/
theorem pop_failsOnly (s : Frames) : FailsOnly (FrameError.TrueOf s) s.pop := by
  -- The only refusal is for want of a local frame.
  unfold Frames.pop
  split
  · rename_i empty
    apply FailsOnly.error
    simp [FrameError.TrueOf, FrameTag.place, at?, empty]
  · exact FailsOnly.ok _ _

end Frames

namespace Machine

variable {devices : Devices} {m after : Machine} {order other : UInt64} {e : FrameError}

private theorem setFrames_frameError {result : Except FrameError Frames}
    (failed : m.setFrames order result = .fault (.raised other (.frame e)) after) :
    result = .error e := by
  -- Only an error is a fault, and it is raised as it is.
  cases result with
  | error d =>
    cases failed
    rfl
  | ok frames => cases failed

private theorem receive_frameError {x : Variable} {t : DataType}
    (failed : m.receive order x t = .fault (.raised other (.frame e)) after) :
    e.TrueOf m.frames := by
  -- Whether the check refuses the variable or the assignment does, both look for its slot.
  unfold Machine.receive at failed
  split at failed
  · rename_i raised
    cases failed
    exact m.frames.typeOf_failsOnly x e raised
  · exact m.frames.assign_failsOnly x _ e (setFrames_frameError failed)

private theorem popInto_frameError {x : Variable}
    (failed : m.popInto order x = .fault (.raised other (.frame e)) after) :
    e.TrueOf m.frames := by
  -- An empty stack is no matter of frames.
  unfold Machine.popInto at failed
  split at failed
  · rename_i raised
    cases failed
    exact m.frames.typeOf_failsOnly x e raised
  · split at failed
    · cases failed
    · exact m.frames.assign_failsOnly x _ e (setFrames_frameError failed)

private theorem backToCaller_ne_frameError :
    m.backToCaller order ≠ .fault (.raised other (.frame e)) after := by
  -- An empty stack is no matter of frames.
  unfold Machine.backToCaller
  split <;> nofun

private theorem write_ne_frameError {stream : Stream} {text : String} :
    m.write devices stream text ≠ .fault (.raised other (.frame e)) after := by
  -- Streams refuse texts for reasons of their own.
  unfold Machine.write
  split <;> nofun

/-- An effect on frames that is refused is refused with the truth. -/
theorem perform_frameError {effect : Effect}
    (failed : m.perform devices order effect = .fault (.raised other (.frame e)) after) :
    e.TrueOf m.frames := by
  -- Each effect on frames asks them once, and no other effect has an error of theirs.
  cases effect with
  | pushFrame => exact m.frames.push_failsOnly e (setFrames_frameError failed)
  | popFrame => exact m.frames.pop_failsOnly e (setFrames_frameError failed)
  | declare x => exact m.frames.declare_failsOnly x e (setFrames_frameError failed)
  | assign x value => exact m.frames.assign_failsOnly x value e (setFrames_frameError failed)
  | receive x t => exact receive_frameError failed
  | pop x => exact popInto_frameError failed
  | ret => exact absurd failed backToCaller_ne_frameError
  | write stream text => exact absurd failed write_ne_frameError
  | dump => exact absurd failed write_ne_frameError
  | skip | createFrame | push | call | jump | exit => cases failed

/-- Reading variables and complaining about values is true of the frames that are read. -/
theorem admits_trueOf (frames : Frames) : Cause.Admits (Cause.TrueOf frames) frames where
  -- Errors of values are not about frames, and the others come from reading variables.
  values cause ofValues := by
    cases cause with
    | frame e => exact ofValues.elim
    | _ => trivial
  read x := frames.read_failsOnly x
  typeOf x := frames.typeOf_failsOnly x

private theorem target_failsOnly (i : Instruction) (labels : Labels) (frames : Frames) :
    FailsOnly (Cause.TrueOf frames) (i.target labels) := by
  -- Labels have nothing to do with frames.
  unfold Instruction.target
  split
  · split
    · exact FailsOnly.error trivial
    · exact FailsOnly.ok _ _
  · exact FailsOnly.error trivial

/-- A frame error that a step raises is true of the frames that the step found. -/
theorem advance_frameError {image : Image}
    (failed : m.advance devices image = .fault (.raised order (.frame e)) after) :
    e.TrueOf m.frames := by
  -- The error comes from the operands or from carrying out what was made of them.
  obtain ⟨i, _, failed⟩ := advance_fault failed
  unfold Machine.step at failed
  split at failed
  · -- The operands are read from the frames that the step found.
    rename_i cause refused
    obtain ⟨same, _⟩ := Outcome.fault.inj failed
    obtain ⟨_, rfl⟩ := Fault.raised.inj same
    have truthful := Instruction.effect_failsOnly (admits_trueOf m.frames)
      fun _ => target_failsOnly i image.labels m.frames
    exact truthful _ refused
  · -- Fetching has not touched the frames, and counting comes after success only.
    rename_i effect reduced
    let fetching : Machine := { m with pc := m.pc + 1 }
    cases performed : fetching.perform devices i.order effect with
    | next n => simp [fetching, performed, Outcome.complete] at failed
    | exit code n => simp [fetching, performed, Outcome.complete] at failed
    | fault f n =>
      simp only [fetching, performed, Outcome.complete, Outcome.fault.injEq] at failed
      obtain ⟨rfl, rfl⟩ := failed
      exact perform_frameError (m := fetching) performed

end Machine

end ThreeAddress
