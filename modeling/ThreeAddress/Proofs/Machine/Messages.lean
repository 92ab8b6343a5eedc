import ThreeAddress.Proofs.Machine.Lives

/-!
What runs write, and on what occasion. The messages of a run account for all that it adds to the
console, and tell a text that happens to look like a dump from a dump.
-/

namespace ThreeAddress

/-- What an instruction has to write. -/
inductive Message where
  /-- A text of the program, which is not empty. -/
  | text (stream : Stream) (content : String)
  /-- The state of a machine that is about to fetch the instruction of the given order. -/
  | dump (order : UInt64) (machine : Machine)

/-- A message as it arrives at its stream. -/
def Message.write : Message → Write
  | text stream content => ⟨stream, content⟩
  | dump order m => ⟨.err, { m with pc := m.pc + 1 }.dump order⟩

/-- What an effect has to write, if the instruction of the given order has it on a machine. -/
def Effect.message? (m : Machine) (order : UInt64) : Effect → Option Message
  | write stream text => if text = "" then none else some (.text stream text)
  | dump => some (.dump order m)
  | _ => none

/-- A console that has taken one more write. -/
def Console.record (c : Console) (w : Write) : Console :=
  { c.bump w.stream with written := w :: c.written }

/-- A text that is not empty is taken, unless the device refuses it. -/
theorem Console.write_of_ne_empty (devices : Devices) {c : Console} {stream : Stream}
    {text : String} (full : text ≠ "") :
    c.write devices stream text =
      match devices.refusal stream (c.count stream + 1) with
      | some reason => (some reason, c.bump stream)
      | none => (none, c.record ⟨stream, text⟩) := by
  -- The write counts itself before the device is asked.
  have counted : (c.bump stream).count stream = c.count stream + 1 := by
    cases stream <;> rfl
  rw [write, if_neg full]
  dsimp only
  rw [counted]
  cases stream <;> rfl

namespace Machine

/-- What the next step of a machine has to write, whether it is taken or not. -/
def message? (image : Image) (m : Machine) : Option Message :=
  match image.code[m.pc]? with
  | none => none
  | some i =>
    match i.effect image.labels m.frames with
    | .error _ => none
    | .ok effect => effect.message? m i.order

/-- The messages of a run of at most the given number of steps, earliest first. -/
def messages (devices : Devices) (image : Image) : Nat → Machine → List Message
  | 0, _ => []
  | fuel + 1, m =>
    match m.advance devices image with
    | .next n => (m.message? image).toList ++ n.messages devices image fuel
    -- A message that is refused is none, and an exit has none.
    | _ => []

variable {devices : Devices} {image : Image} {m : Machine} {order : UInt64} {message : Message}

/-- A dump is never empty. -/
theorem dump_ne_empty (m : Machine) (order : UInt64) : m.dump order ≠ "" := by
  -- Its first line at least has an end.
  intro empty
  rw [dump, List.map_cons, String.join_cons] at empty
  have heading := (String.append_eq_empty_iff.mp empty).1
  exact absurd (String.append_eq_empty_iff.mp heading).2 (by decide)

/-- A text that is not empty is taken, unless the device refuses it. -/
theorem write_of_ne_empty {stream : Stream} {text : String} (full : text ≠ "") :
    m.write devices stream text =
      match devices.refusal stream (m.console.count stream + 1) with
      | some reason => .fault (.refused reason) { m with console := m.console.bump stream }
      | none => .next { m with console := m.console.record ⟨stream, text⟩ } := by
  -- A machine asks its console, and passes on what the device says.
  rw [Machine.write, Console.write_of_ne_empty devices full]
  cases devices.refusal stream (m.console.count stream + 1) <;> rfl

/-- An effect without a message is carried out on all devices alike. -/
theorem perform_of_quiet (devices : Devices) {effect : Effect}
    (quiet : effect.message? m order = none) (after : Machine) :
    after.perform devices order effect = after.perform .willing order effect ∧
      (after.perform devices order effect).machine.console = after.console := by
  cases effect with
  | write stream text =>
    -- An empty text comes to no device.
    have empty : text = "" := by
      by_contra full
      simp [Effect.message?, full] at quiet
    rw [empty]
    exact ⟨rfl, rfl⟩
  | dump => cases quiet
  | _ => exact ⟨rfl, perform_console devices rfl⟩

/-- An effect with a message is carried out by writing it, which is never in vain. -/
theorem perform_of_message {effect : Effect} (writes : effect.message? m order = some message) :
    message.write.text ≠ "" ∧ ∀ devices, { m with pc := m.pc + 1 }.perform devices order effect =
      { m with pc := m.pc + 1 }.write devices message.write.stream message.write.text := by
  -- Two effects have a message, and both are nothing but a write.
  cases effect with
  | write stream text =>
    by_cases empty : text = ""
    · simp [Effect.message?, empty] at writes
    · simp only [Effect.message?, if_neg empty, Option.some.injEq] at writes
      subst writes
      exact ⟨empty, fun _ => rfl⟩
  | dump =>
    cases writes
    exact ⟨dump_ne_empty _ _, fun _ => rfl⟩
  | _ => cases writes

/-- A step without a message is taken on all devices alike. -/
theorem advance_of_quiet (devices : Devices) (quiet : m.message? image = none) :
    m.advance devices image = m.advance .willing image ∧
      (m.advance devices image).machine.console = m.console := by
  -- Neither the end of the image nor an operand that fails has anything to write.
  unfold Machine.advance Machine.step
  unfold message? at quiet
  cases fetched : image.code[m.pc]? with
  | none => exact ⟨rfl, rfl⟩
  | some i =>
    rw [fetched] at quiet
    dsimp only at quiet ⊢
    cases reduced : i.effect image.labels m.frames with
    | error cause => exact ⟨rfl, rfl⟩
    | ok effect =>
      rw [reduced] at quiet
      dsimp only
      rw [Outcome.console_complete]
      obtain ⟨same, kept⟩ := perform_of_quiet devices quiet { m with pc := m.pc + 1 }
      exact ⟨congrArg _ same, kept⟩

/-- A message decides with the device whether the run goes on, and nothing else does. -/
theorem advance_of_message (writes : m.message? image = some message) :
    ∃ n, n.console = m.console.record message.write ∧ ∀ devices, m.advance devices image =
      match devices.refusal message.write.stream (m.console.count message.write.stream + 1) with
      | some reason => .fault (.refused reason)
          { m with pc := m.pc + 1, console := m.console.bump message.write.stream }
      | none => .next n := by
  -- The message is that of an effect, and carrying out the effect is writing it.
  unfold message? at writes
  split at writes
  · cases writes
  · rename_i i fetched
    split at writes
    · cases writes
    · rename_i effect reduced
      obtain ⟨full, performed⟩ := perform_of_message writes
      let after : Machine :=
        { m with pc := m.pc + 1, console := m.console.record message.write }
      refine ⟨after.complete i.opcode, rfl, fun devices => ?_⟩
      rw [advance_of_effect fetched reduced, performed, write_of_ne_empty full]
      dsimp only
      cases devices.refusal message.write.stream (m.console.count message.write.stream + 1) <;> rfl

/-- What a step adds to the console is its message, if the run goes on, and otherwise nothing. -/
theorem advance_written (devices : Devices) (image : Image) (m : Machine) :
    (∃ n, m.advance devices image = .next n ∧
      n.console.written =
        ((m.message? image).map Message.write).toList ++ m.console.written) ∨
    (∀ n, m.advance devices image ≠ .next n) ∧
      (m.advance devices image).machine.console.written = m.console.written := by
  -- Without a message the console stays as it is, and with one the device decides.
  cases writes : m.message? image with
  | none =>
    have kept := (advance_of_quiet devices writes).2
    cases stepped : m.advance devices image with
    | next n =>
      rw [stepped] at kept
      exact .inl ⟨n, rfl, congrArg Console.written kept⟩
    | exit code n =>
      rw [stepped] at kept
      exact .inr ⟨nofun, congrArg Console.written kept⟩
    | fault fault n =>
      rw [stepped] at kept
      exact .inr ⟨nofun, congrArg Console.written kept⟩
  | some message =>
    obtain ⟨n, recorded, outcome⟩ := advance_of_message writes
    rw [outcome devices]
    cases devices.refusal message.write.stream (m.console.count message.write.stream + 1) with
    | some reason =>
      refine .inr ⟨nofun, ?_⟩
      cases message.write.stream <;> rfl
    | none => exact .inl ⟨n, rfl, congrArg Console.written recorded⟩

/-- All that a run adds to the console are its messages. -/
theorem run_messages (devices : Devices) (image : Image) (fuel : Nat) (m : Machine) :
    (m.run devices image fuel).machine.console.written.reverse =
      m.console.written.reverse ++ (m.messages devices image fuel).map Message.write := by
  -- Messages are listed from the first step on, and the rest of the run begins behind it.
  induction fuel generalizing m with
  | zero => simp [Machine.run, messages, Outcome.machine]
  | succ fuel ih =>
    rw [Machine.run, messages]
    rcases advance_written devices image m with ⟨n, next, added⟩ | ⟨ended, kept⟩
    · rw [next]
      dsimp only
      rw [ih n, added]
      cases m.message? image <;> simp
    · cases stepped : m.advance devices image with
      | next n => exact absurd stepped (ended n)
      | exit code n =>
        rw [stepped] at kept
        simpa using kept
      | fault fault n =>
        rw [stepped] at kept
        simpa using kept

end Machine

end ThreeAddress
