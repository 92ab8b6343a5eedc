import ThreeAddress.Proofs.Machine.Writes

/-!
How a step succeeds. An effect that is not refused changes a machine in a way of its own, and what
steps keep is proved from these ways.
-/

namespace ThreeAddress

/-- What a machine has become where the effect of the instruction of an order is carried out. -/
inductive CarriedOut (devices : Devices) (m : Machine) (order : UInt64) :
    Effect → Machine → Prop where
  | skip : CarriedOut devices m order .skip m
  | createFrame : CarriedOut devices m order .createFrame { m with frames := m.frames.create }
  | pushFrame {frames : Frames} (moved : m.frames.push = .ok frames) :
      CarriedOut devices m order .pushFrame { m with frames }
  | popFrame {frames : Frames} (moved : m.frames.pop = .ok frames) :
      CarriedOut devices m order .popFrame { m with frames }
  | declare {x : Variable} {frames : Frames} (declared : m.frames.declare x = .ok frames) :
      CarriedOut devices m order (.declare x) { m with frames }
  | assign {x : Variable} {value : Value} {frames : Frames}
      (assigned : m.frames.assign x value = .ok frames) :
      CarriedOut devices m order (.assign x value) { m with frames }
  /-- The line that is assigned is gone from the input. -/
  | receive {x : Variable} {t : DataType} {frames : Frames}
      (assigned : m.frames.assign x (Input.value t (Input.next m.input).1) = .ok frames) :
      CarriedOut devices m order (.receive x t)
        { m with frames, input := (Input.next m.input).2 }
  | push (value : Value) :
      CarriedOut devices m order (.push value) { m with dataStack := value :: m.dataStack }
  /-- The value that is assigned is gone from the stack. -/
  | pop {x : Variable} {value : Value} {dataStack : List Value} {frames : Frames}
      (top : m.dataStack = value :: dataStack) (assigned : m.frames.assign x value = .ok frames) :
      CarriedOut devices m order (.pop x) { m with dataStack, frames }
  | call (target : Nat) :
      CarriedOut devices m order (.call target)
        { m with callStack := (m.pc - 1) :: m.callStack, pc := target }
  | ret {position : Nat} {callStack : List Nat} (top : m.callStack = position :: callStack) :
      CarriedOut devices m order .ret { m with callStack, pc := position + 1 }
  | jump (target : Nat) : CarriedOut devices m order (.jump target) { m with pc := target }
  | write {stream : Stream} {text : String} {console : Console}
      (taken : m.console.write devices stream text = (none, console)) :
      CarriedOut devices m order (.write stream text) { m with console }
  | dump {console : Console}
      (taken : m.console.write devices .err (m.dump order) = (none, console)) :
      CarriedOut devices m order .dump { m with console }
  | exit (code : Nat) : CarriedOut devices m order (.exit code) m

/-- An outcome that is no fault, with the machine that it shows. -/
inductive Outcome.Succeeds : Outcome → Machine → Prop where
  | next (m : Machine) : Succeeds (.next m) m
  | exit (code : Nat) (m : Machine) : Succeeds (.exit code m) m

namespace Machine

variable {devices : Devices} {image : Image} {m n : Machine} {order : UInt64}

private theorem setFrames_succeeds {result : Except FrameError Frames}
    (done : (m.setFrames order result).Succeeds n) :
    ∃ frames, result = .ok frames ∧ n = { m with frames } := by
  -- Only frames that exist can have been installed.
  cases result with
  | error e => cases done
  | ok frames =>
    cases done
    exact ⟨frames, rfl, rfl⟩

private theorem write_succeeds {stream : Stream} {text : String}
    (done : (m.write devices stream text).Succeeds n) :
    ∃ console, m.console.write devices stream text = (none, console) ∧ n = { m with console } := by
  -- A refusal is a fault, so the text was taken.
  unfold Machine.write at done
  split at done
  · rename_i console taken
    cases done
    exact ⟨console, taken, rfl⟩
  · cases done

private theorem receive_succeeds {x : Variable} {t : DataType}
    (done : (m.receive order x t).Succeeds n) :
    CarriedOut devices m order (.receive x t) n := by
  -- A line was consumed only because the variable could be assigned.
  unfold Machine.receive at done
  split at done
  · cases done
  · obtain ⟨frames, assigned, rfl⟩ := setFrames_succeeds done
    exact .receive assigned

private theorem popInto_succeeds {x : Variable} (done : (m.popInto order x).Succeeds n) :
    CarriedOut devices m order (.pop x) n := by
  -- There was a value, and the variable took it.
  unfold Machine.popInto at done
  split at done
  · cases done
  · split at done
    · cases done
    · rename_i value dataStack top
      obtain ⟨frames, assigned, rfl⟩ := setFrames_succeeds done
      exact .pop top assigned

private theorem backToCaller_succeeds (done : (m.backToCaller order).Succeeds n) :
    CarriedOut devices m order .ret n := by
  -- There was a call to return from.
  unfold Machine.backToCaller at done
  split at done
  · cases done
  · rename_i position callStack top
    cases done
    exact .ret top

/-- An effect that does not fail is carried out in its own way. -/
theorem perform_succeeds {effect : Effect}
    (done : (m.perform devices order effect).Succeeds n) :
    CarriedOut devices m order effect n := by
  -- Effects on frames and texts go through one operation each, and the others cannot fail.
  cases effect with
  | skip =>
    cases done
    exact .skip
  | createFrame =>
    cases done
    exact .createFrame
  | pushFrame =>
    obtain ⟨frames, moved, rfl⟩ := setFrames_succeeds done
    exact .pushFrame moved
  | popFrame =>
    obtain ⟨frames, moved, rfl⟩ := setFrames_succeeds done
    exact .popFrame moved
  | declare x =>
    obtain ⟨frames, declared, rfl⟩ := setFrames_succeeds done
    exact .declare declared
  | assign x value =>
    obtain ⟨frames, assigned, rfl⟩ := setFrames_succeeds done
    exact .assign assigned
  | receive x t => exact receive_succeeds done
  | push value =>
    cases done
    exact .push value
  | pop x => exact popInto_succeeds done
  | call target =>
    cases done
    exact .call target
  | ret => exact backToCaller_succeeds done
  | jump target =>
    cases done
    exact .jump target
  | write stream text =>
    obtain ⟨console, taken, rfl⟩ := write_succeeds done
    exact .write taken
  | dump =>
    obtain ⟨console, taken, rfl⟩ := write_succeeds done
    exact .dump taken
  | exit code =>
    cases done
    exact .exit code

/-- A step that does not fail carries out the effect of its instruction, and counts it. -/
theorem step_succeeds {labels : Labels} {i : Instruction}
    (done : (m.step devices labels i).Succeeds n) :
    ∃ effect after, i.effect labels m.frames = .ok effect ∧
      CarriedOut devices m i.order effect after ∧ n = after.complete i.opcode := by
  -- Counting changes neither the kind of the outcome nor what the effect did.
  unfold Machine.step at done
  split at done
  · cases done
  · rename_i effect reduced
    cases performed : m.perform devices i.order effect with
    | next after =>
      rw [performed] at done
      cases done
      exact ⟨effect, after, reduced, perform_succeeds (performed ▸ .next after), rfl⟩
    | exit code after =>
      rw [performed] at done
      cases done
      exact ⟨effect, after, reduced, perform_succeeds (performed ▸ .exit code after), rfl⟩
    | fault f after =>
      rw [performed] at done
      cases done

/-- A successful step fetches an instruction, and carries out its effect behind it. -/
theorem advance_succeeds {i : Instruction} (fetched : image.code[m.pc]? = some i)
    (done : (m.advance devices image).Succeeds n) :
    ∃ effect after, i.effect image.labels m.frames = .ok effect ∧
      CarriedOut devices { m with pc := m.pc + 1 } i.order effect after ∧
        n = after.complete i.opcode := by
  -- Without an instruction there would be no step to succeed.
  unfold Machine.advance at done
  rw [fetched] at done
  exact step_succeeds done

/-- A step after which a run goes on has carried out the effect of what it fetched. -/
theorem advance_next {i : Instruction} (fetched : image.code[m.pc]? = some i)
    (next : m.advance devices image = .next n) :
    ∃ effect after, i.effect image.labels m.frames = .ok effect ∧
      CarriedOut devices { m with pc := m.pc + 1 } i.order effect after ∧
        n = after.complete i.opcode :=
  advance_succeeds fetched (by rw [next]; exact .next n)

/-- A run goes on only behind an instruction that was fetched. -/
theorem advance_next_fetched (next : m.advance devices image = .next n) :
    ∃ i, image.code[m.pc]? = some i := by
  -- Behind the last instruction a run ends.
  cases fetched : image.code[m.pc]? with
  | none => simp [Machine.advance, fetched] at next
  | some i => exact ⟨i, rfl⟩

end Machine

end ThreeAddress
