import ThreeAddress.Machine.Step
import ThreeAddress.Proofs.Result

/-!
How a step fails. Reducing an instruction to its effect changes nothing, and an effect is refused
before it has changed anything, so a failing step leaves the machine as it was.
-/

namespace ThreeAddress

/-- A variable whose type can be asked for can be assigned. -/
theorem Frames.assign_of_typeOf {s : Frames} {x : Variable} {t : Option DataType}
    (known : s.typeOf x = .ok t) (value : Value) : ∃ after, s.assign x value = .ok after := by
  -- Both need the frame and the name, and neither needs the slot to hold anything.
  unfold Frames.typeOf Frames.slot at known
  unfold Frames.assign
  cases found : s.frame x.frame with
  | error e => simp [found, Bind.bind, Except.bind] at known
  | ok f =>
    cases held : f.slot? x.name with
    | none => simp [found, held, Bind.bind, Except.bind] at known
    | some content => exact ⟨_, by simp [held, Bind.bind, Except.bind]; rfl⟩

/-- The ways in which a machine fails to carry out the effect of the instruction of an order. -/
inductive EffectFailure (m : Machine) (order : UInt64) : Fault → Machine → Prop where
  /-- A stream refuses a text, which is not recorded then. -/
  | refused (reason : String) (console : Console)
      (unwritten : console.written = m.console.written) :
      EffectFailure m order (.refused reason) { m with console }
  | frame (e : FrameError) : EffectFailure m order (.raised order (.frame e)) m
  | emptyDataStack : EffectFailure m order (.raised order .emptyDataStack) m
  | emptyCallStack : EffectFailure m order (.raised order .emptyCallStack) m

namespace Machine

variable {devices : Devices} {labels : Labels} {m after : Machine} {order : UInt64} {fault : Fault}

/-- Frames that cannot be installed leave the machine as it was. -/
theorem setFrames_fault {result : Except FrameError Frames}
    (failed : m.setFrames order result = .fault fault after) :
    EffectFailure m order fault after := by
  cases result with
  | error e =>
    cases failed
    exact .frame e
  | ok frames =>
    -- Frames that exist are installed, which is no failure.
    cases failed

/-- A text that is refused leaves all but the counts of the console as it was. -/
theorem write_fault {stream : Stream} {text : String}
    (failed : m.write devices stream text = .fault fault after) :
    EffectFailure m order fault after := by
  -- An empty text is never refused, and any other text is recorded only if it is taken.
  unfold Machine.write Console.write at failed
  split at failed
  · rename_i accepted
    cases failed
  · rename_i reason console refused
    cases failed
    refine .refused reason console ?_
    split at refused
    · cases refused
    · dsimp only at refused
      split at refused
      · cases refused
        cases stream <;> rfl
      · cases refused

/-- Input is consumed only where the variable can be assigned, so no failure consumes any. -/
theorem receive_fault {x : Variable} {t : DataType}
    (failed : m.receive order x t = .fault fault after) : EffectFailure m order fault after := by
  -- The variable is checked first, and a value goes into any variable that passes.
  unfold Machine.receive at failed
  split at failed
  · rename_i e unknown
    cases failed
    exact .frame e
  · -- Past the check nothing can fail, so this is not where the failure came from.
    rename_i known
    obtain ⟨frames, assigned⟩ :=
      Frames.assign_of_typeOf known (Input.value t (Input.next m.input).1)
    simp [assigned, Machine.setFrames] at failed

/-- A value is taken only where the variable can be assigned, so no failure takes one. -/
theorem popInto_fault {x : Variable} (failed : m.popInto order x = .fault fault after) :
    EffectFailure m order fault after := by
  -- The variable is checked first and then the stack, so that assigning cannot fail.
  unfold Machine.popInto at failed
  split at failed
  · rename_i e unknown
    cases failed
    exact .frame e
  · rename_i known
    split at failed
    · cases failed
      exact .emptyDataStack
    · -- The value is off the stack here, but the variable takes it.
      rename_i value dataStack stacked
      obtain ⟨frames, assigned⟩ := Frames.assign_of_typeOf known value
      simp [assigned, Machine.setFrames] at failed

/-- Without a call to return from the machine stays as it was. -/
theorem backToCaller_fault (failed : m.backToCaller order = .fault fault after) :
    EffectFailure m order fault after := by
  -- Nothing but the stack of calls can be lacking.
  unfold Machine.backToCaller at failed
  split at failed
  · cases failed
    exact .emptyCallStack
  · cases failed

/-- An effect that fails has changed nothing. -/
theorem perform_fault {effect : Effect}
    (failed : m.perform devices order effect = .fault fault after) :
    EffectFailure m order fault after := by
  -- Effects fail through one of five operations, and the others always succeed.
  cases effect with
  | skip => cases failed
  | createFrame => cases failed
  | pushFrame => exact setFrames_fault failed
  | popFrame => exact setFrames_fault failed
  | declare x => exact setFrames_fault failed
  | assign x value => exact setFrames_fault failed
  | receive x t => exact receive_fault failed
  | push value => cases failed
  | pop x => exact popInto_fault failed
  | call target => cases failed
  | ret => exact backToCaller_fault failed
  | jump target => cases failed
  | write stream text => exact write_fault failed
  | dump => exact write_fault failed
  | exit code => cases failed

/-- A step fails either before its effect is known, or by its effect. -/
theorem step_fault {i : Instruction} (failed : m.step devices labels i = .fault fault after) :
    (∃ cause, i.effect labels m.frames = .error cause ∧ fault = .raised i.order cause ∧ after = m) ∨
      EffectFailure m i.order fault after := by
  -- Counting an instruction as completed happens on success only.
  unfold Machine.step at failed
  split at failed
  · -- The operands already fail, before the machine is touched.
    rename_i cause refused
    cases failed
    exact .inl ⟨cause, refused, rfl, rfl⟩
  · rename_i effect reduced
    cases performed : m.perform devices i.order effect with
    | next n => simp [performed, Outcome.complete] at failed
    | exit code n => simp [performed, Outcome.complete] at failed
    | fault f n =>
      simp only [performed, Outcome.complete, Outcome.fault.injEq] at failed
      obtain ⟨rfl, rfl⟩ := failed
      exact .inr (perform_fault performed)

/-- Only a fetched instruction can fail. -/
theorem advance_fault {image : Image} (failed : m.advance devices image = .fault fault after) :
    ∃ i, image.code[m.pc]? = some i ∧
      step devices image.labels { m with pc := m.pc + 1 } i = .fault fault after := by
  -- A step is fetching and carrying out, and fetching does not fail.
  unfold Machine.advance at failed
  split at failed
  · -- Past the last instruction a run ends well.
    cases failed
  · rename_i i fetched
    exact ⟨i, fetched, failed⟩

/-- A run that fails does so in its last step. -/
theorem run_fault {image : Image} {fuel : Nat}
    (failed : m.run devices image fuel = .fault fault after) :
    ∃ before : Machine, before.advance devices image = .fault fault after := by
  -- By induction on the steps, a run is the step it begins with and the run after that.
  induction fuel generalizing m with
  | zero => cases failed
  | succ fuel ih =>
    rw [Machine.run] at failed
    split at failed
    · exact ih failed
    · exact ⟨m, failed⟩

end Machine

end ThreeAddress
