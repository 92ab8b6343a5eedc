import Mathlib.Data.List.Forall2
import ThreeAddress.Machine.Execution
import ThreeAddress.Proofs.Language.Reordering
import ThreeAddress.Proofs.Machine.Writes

/-!
Two machines in lockstep, where one carries out the instructions of the other under other orders.
The orders show in faults and in the first line of a dump, and have no influence otherwise.
-/

namespace ThreeAddress

/-- A fault with the order that a map makes of its own. -/
def Fault.reorder (f : UInt64 → UInt64) : Fault → Fault
  | raised order cause => raised (f order) cause
  | refused reason => refused reason

/-- An image in which a map is applied to all orders. -/
def Image.reorder (f : UInt64 → UInt64) (image : Image) : Image :=
  { image with code := image.code.map (Instruction.reorder f) }

/-- The first line of a dump, which shows a position and an order. -/
def dumpHeading (position : Nat) (order : UInt64) : String :=
  s!"BREAK at position {position} (order {order})" ++ "\n"

/-- Two writes are alike if they are the same, or dumps with different orders in the first line. -/
inductive Write.Alike (f : UInt64 → UInt64) : Write → Write → Prop where
  | same (w : Write) : Alike f w w
  | dump (position : Nat) (order : UInt64) (rest : String) :
      Alike f ⟨.err, dumpHeading position order ++ rest⟩
        ⟨.err, dumpHeading position (f order) ++ rest⟩

/-- Two consoles are alike if they have seen as many writes and recorded writes that are alike. -/
structure Console.Alike (f : UInt64 → UInt64) (c d : Console) : Prop where
  written : List.Forall₂ (Write.Alike f) c.written d.written
  outCount : d.outCount = c.outCount
  errCount : d.errCount = c.errCount

/-- Two machines are alike if they differ only in consoles, and these are alike. -/
structure Machine.Alike (f : UInt64 → UInt64) (m n : Machine) : Prop where
  frames : n.frames = m.frames
  dataStack : n.dataStack = m.dataStack
  callStack : n.callStack = m.callStack
  pc : n.pc = m.pc
  executed : n.executed = m.executed
  last : n.last = m.last
  input : n.input = m.input
  console : m.console.Alike f n.console

/-- Two outcomes are alike if they are of one kind, with machines that are alike. -/
inductive Outcome.Alike (f : UInt64 → UInt64) : Outcome → Outcome → Prop where
  | next {m n : Machine} (alike : m.Alike f n) : Alike f (.next m) (.next n)
  | exit {m n : Machine} (code : Nat) (alike : m.Alike f n) : Alike f (.exit code m) (.exit code n)
  | fault {m n : Machine} (fault : Fault) (alike : m.Alike f n) :
      Alike f (.fault fault m) (.fault (fault.reorder f) n)

/-- Two consoles have gained the same writes since earlier, where the earlier ones come first. -/
def Console.GainSame (c c' d d' : Console) : Prop :=
  -- The latest writes are listed first, so what is gained stands in front.
  ∃ gained, c'.written = gained ++ c.written ∧ d'.written = gained ++ d.written

section Lockstep

variable {f : UInt64 → UInt64} {m n : Machine}

/-- Every console is like itself. -/
theorem Console.Alike.refl (c : Console) : c.Alike f c where
  written := List.forall₂_same.mpr fun w _ => .same w
  outCount := rfl
  errCount := rfl

/-- Every machine is like itself. -/
theorem Machine.Alike.refl (m : Machine) : m.Alike f m :=
  ⟨rfl, rfl, rfl, rfl, rfl, rfl, rfl, .refl m.console⟩

/-- A machine that is like another is that machine with another console. -/
theorem Machine.Alike.eq_with_console (h : m.Alike f n) :
    n = { m with console := n.console } := by
  -- Every other field is one of those that the relation equates.
  obtain ⟨frames, dataStack, callStack, pc, executed, last, input, _⟩ := h
  cases n
  cases m
  simp only at frames dataStack callStack pc executed last input
  subst frames dataStack callStack pc executed last input
  rfl

/-- Machines are alike if one is the other with a console that is alike. -/
theorem Machine.Alike.of_console {c d : Console} (alike : c.Alike f d) (m : Machine) :
    Alike f { m with console := c } { m with console := d } :=
  ⟨rfl, rfl, rfl, rfl, rfl, rfl, rfl, alike⟩

private theorem dump_ne_empty (position : Nat) (order : UInt64) (rest : String) :
    dumpHeading position order ++ rest ≠ "" := by
  -- A dump is never empty, since its first line at least has an end.
  intro empty
  have heading := (String.append_eq_empty_iff.mp empty).1
  have ending := (String.append_eq_empty_iff.mp heading).2
  exact absurd ending (by decide)

/-- Writes that are alike are empty together. -/
theorem Write.Alike.empty_iff {w v : Write} (h : w.Alike f v) : v.text = "" ↔ w.text = "" := by
  -- The same text is empty twice, and a dump never.
  cases h with
  | same => exact Iff.rfl
  | dump position order rest =>
    exact iff_of_false (dump_ne_empty position (f order) rest) (dump_ne_empty position order rest)

/-- A dump depends on the order only in its first line. -/
theorem Machine.dump_eq (m : Machine) :
    ∃ rest, ∀ order, m.dump order = dumpHeading (m.pc - 1) order ++ rest :=
  ⟨_, fun _ => String.join_cons⟩

/-- Consoles that are alike ask a device with one count for the next write to a stream. -/
theorem Console.Alike.count_bump {c d : Console} (h : c.Alike f d) (stream : Stream) :
    (d.bump stream).count stream = (c.bump stream).count stream := by
  -- Both counts go up by one.
  cases stream with
  | out => exact congrArg (· + 1) h.outCount
  | err => exact congrArg (· + 1) h.errCount

/-- Writing to consoles that are alike gives consoles that are alike, and one answer. -/
theorem Console.Alike.write (devices : Devices) {c d : Console} {stream : Stream} {s t : String}
    (h : c.Alike f d) (texts : Write.Alike f ⟨stream, s⟩ ⟨stream, t⟩) :
    (d.write devices stream t).1 = (c.write devices stream s).1 ∧
      (c.write devices stream s).2.Alike f (d.write devices stream t).2 := by
  -- Counting a write on both sides leaves what was recorded, and so the consoles, alike.
  have bumped : (c.bump stream).Alike f (d.bump stream) := by
    cases stream with
    | out => exact ⟨h.written, congrArg (· + 1) h.outCount, h.errCount⟩
    | err => exact ⟨h.written, h.outCount, congrArg (· + 1) h.errCount⟩
  unfold Console.write
  by_cases empty : s = ""
  · -- An empty text is no write, neither here nor there.
    rw [if_pos empty, if_pos (texts.empty_iff.mpr empty)]
    exact ⟨rfl, h⟩
  · rw [if_neg empty, if_neg fun other => empty (texts.empty_iff.mp other)]
    simp only [h.count_bump stream]
    cases devices.refusal stream ((c.bump stream).count stream) with
    | some reason => exact ⟨rfl, bumped⟩
    | none => exact ⟨rfl, .cons texts bumped.written, bumped.outCount, bumped.errCount⟩

/-- Writing texts that are alike keeps machines alike. -/
theorem Machine.Alike.write (devices : Devices) {stream : Stream} {s t : String} (h : m.Alike f n)
    (texts : Write.Alike f ⟨stream, s⟩ ⟨stream, t⟩) :
    Outcome.Alike f (m.write devices stream s) (n.write devices stream t) := by
  -- Both consoles give one answer, which decides for both machines.
  obtain ⟨answer, consoles⟩ := h.console.write devices texts
  rw [h.eq_with_console]
  unfold Machine.write
  dsimp only
  -- From here on only the answer and the two consoles matter.
  generalize m.console.write devices stream s = first at answer consoles ⊢
  generalize n.console.write devices stream t = second at answer consoles ⊢
  obtain ⟨refusal, c⟩ := first
  obtain ⟨_, d⟩ := second
  cases answer
  cases refusal with
  | none => exact .next (.of_console consoles m)
  | some reason => exact .fault (.refused reason) (.of_console consoles m)

/-- Installing the frames of one result keeps machines alike. -/
theorem Machine.Alike.setFrames (h : m.Alike f n) (order : UInt64)
    (result : Except FrameError Frames) :
    Outcome.Alike f (m.setFrames order result) (n.setFrames (f order) result) := by
  -- The result is the same, and only a refusal shows the order.
  rw [h.eq_with_console]
  cases result with
  | error e => exact .fault (.raised order (.frame e)) (.of_console h.console m)
  | ok frames => exact .next (.of_console h.console { m with frames })

/-- Assigning the next line of input keeps machines alike. -/
theorem Machine.Alike.receive (h : m.Alike f n) (order : UInt64) (x : Variable) (t : DataType) :
    Outcome.Alike f (m.receive order x t) (n.receive (f order) x t) := by
  -- Frames and input decide, and both machines have the same.
  rw [h.eq_with_console]
  unfold Machine.receive
  dsimp only
  split
  · rename_i e unknown
    exact .fault (.raised order (.frame e)) (.of_console h.console m)
  · -- The line is gone from both inputs before the value is stored.
    exact setFrames (.of_console h.console { m with input := (Input.next m.input).2 }) order _

/-- Assigning the top of the data stack keeps machines alike. -/
theorem Machine.Alike.popInto (h : m.Alike f n) (order : UInt64) (x : Variable) :
    Outcome.Alike f (m.popInto order x) (n.popInto (f order) x) := by
  -- Frames and the data stack decide, and both machines have the same.
  rw [h.eq_with_console]
  unfold Machine.popInto
  dsimp only
  split
  · rename_i e unknown
    exact .fault (.raised order (.frame e)) (.of_console h.console m)
  · split
    · exact .fault (.raised order .emptyDataStack) (.of_console h.console m)
    · -- The value is gone from both stacks before it is stored.
      rename_i value dataStack stacked
      exact setFrames (.of_console h.console { m with dataStack }) order _

/-- Returning to a caller keeps machines alike. -/
theorem Machine.Alike.backToCaller (h : m.Alike f n) (order : UInt64) :
    Outcome.Alike f (m.backToCaller order) (n.backToCaller (f order)) := by
  -- The call stack decides, and both machines have the same.
  rw [h.eq_with_console]
  unfold Machine.backToCaller
  dsimp only
  split
  · exact .fault (.raised order .emptyCallStack) (.of_console h.console m)
  · rename_i position callStack called
    exact .next (.of_console h.console { m with callStack, pc := position + 1 })

/-- Carrying out one effect for instructions of mapped orders keeps machines alike. -/
theorem Machine.Alike.perform (devices : Devices) (h : m.Alike f n) (order : UInt64)
    (effect : Effect) :
    Outcome.Alike f (m.perform devices order effect) (n.perform devices (f order) effect) := by
  -- Every effect reads fields that agree, and all but a dump would write the same text.
  have same := h.eq_with_console
  cases effect with
  | skip => exact .next h
  | createFrame =>
    rw [same]
    exact .next (.of_console h.console { m with frames := m.frames.create })
  | pushFrame =>
    rw [Machine.perform, Machine.perform, h.frames]
    exact h.setFrames order m.frames.push
  | popFrame =>
    rw [Machine.perform, Machine.perform, h.frames]
    exact h.setFrames order m.frames.pop
  | declare x =>
    rw [Machine.perform, Machine.perform, h.frames]
    exact h.setFrames order (m.frames.declare x)
  | assign x value =>
    rw [Machine.perform, Machine.perform, h.frames]
    exact h.setFrames order (m.frames.assign x value)
  | receive x t => exact h.receive order x t
  | push value =>
    rw [same]
    exact .next (.of_console h.console { m with dataStack := value :: m.dataStack })
  | pop x => exact h.popInto order x
  | call target =>
    rw [same]
    exact .next (.of_console h.console
      { m with callStack := (m.pc - 1) :: m.callStack, pc := target })
  | ret => exact h.backToCaller order
  | jump target =>
    rw [same]
    exact .next (.of_console h.console { m with pc := target })
  | write stream text => exact h.write devices (.same ⟨stream, text⟩)
  | dump =>
    -- The dump of the other machine shows the same state behind another order.
    obtain ⟨rest, dumped⟩ := m.dump_eq
    have other : n.dump (f order) = dumpHeading (m.pc - 1) (f order) ++ rest := by
      rw [← dumped, same]
      rfl
    rw [Machine.perform, Machine.perform, dumped, other]
    exact h.write devices (.dump (m.pc - 1) order rest)
  | exit code => exact .exit code h

/-- Counting an instruction as completed keeps machines alike. -/
theorem Machine.Alike.complete (h : m.Alike f n) (opcode : Opcode) :
    Alike f (m.complete opcode) (n.complete opcode) := by
  -- What is counted is the same, and the consoles are left alone.
  rw [h.eq_with_console]
  exact .of_console h.console (m.complete opcode)

/-- Counting an instruction as completed keeps outcomes alike. -/
theorem Outcome.Alike.complete {a b : Outcome} (h : a.Alike f b) (opcode : Opcode) :
    Alike f (a.complete opcode) (b.complete opcode) := by
  -- Failed instructions are not counted.
  cases h with
  | next alike => exact .next (alike.complete opcode)
  | exit code alike => exact .exit code (alike.complete opcode)
  | fault fault alike => exact .fault fault alike

/-- The effect of an instruction does not depend on its order. -/
theorem Instruction.effect_reorder (i : Instruction) (labels : Labels) (frames : Frames) :
    (i.reorder f).effect labels frames = i.effect labels frames :=
  rfl

/-- Carrying out an instruction under a mapped order keeps machines alike. -/
theorem Machine.Alike.step (devices : Devices) (labels : Labels) (h : m.Alike f n)
    (i : Instruction) :
    Outcome.Alike f (m.step devices labels i) (n.step devices labels (i.reorder f)) := by
  -- Both instructions have one effect, or cannot be reduced for one cause.
  unfold Machine.step
  rw [i.effect_reorder, h.frames]
  cases i.effect labels m.frames with
  | error cause => exact .fault (.raised i.order cause) h
  | ok effect => exact (h.perform devices i.order effect).complete i.opcode

/-- An image with mapped orders holds the same instructions at the same positions. -/
theorem Image.fetch_reorder (image : Image) (position : Nat) :
    (image.reorder f).code[position]? = image.code[position]?.map (Instruction.reorder f) :=
  Array.getElem?_map

/-- Machines that are alike still are after their positions have moved on. -/
theorem Machine.Alike.fetched (h : m.Alike f n) :
    Alike f { m with pc := m.pc + 1 } { n with pc := n.pc + 1 } := by
  -- The positions are the same, and the consoles are left alone.
  rw [h.eq_with_console]
  exact .of_console h.console { m with pc := m.pc + 1 }

/-- Fetching from images that differ in orders, and carrying out, keeps machines alike. -/
theorem Machine.Alike.advance (devices : Devices) (image : Image) (h : m.Alike f n) :
    Outcome.Alike f (m.advance devices image) (n.advance devices (image.reorder f)) := by
  -- Both are at one position, where the images hold one instruction but for its order.
  unfold Machine.advance
  rw [image.fetch_reorder, congrArg (image.code[·]?) h.pc]
  cases image.code[m.pc]? with
  | none => exact .exit 0 h
  | some i => exact h.fetched.step devices image.labels i

/-- The same text adds the same write to consoles that are alike, or none to either. -/
theorem Console.Alike.write_same (devices : Devices) {c d : Console} (h : c.Alike f d)
    (stream : Stream) (text : String) :
    c.GainSame (c.write devices stream text).2 d (d.write devices stream text).2 := by
  -- Whether the text is taken depends on the number of writes, which is the same.
  have kept (e : Console) : (e.bump stream).written = e.written := by
    cases stream <;> rfl
  unfold Console.write
  by_cases empty : text = ""
  · simp only [if_pos empty]
    exact ⟨[], rfl, rfl⟩
  · simp only [if_neg empty, h.count_bump stream]
    cases devices.refusal stream ((c.bump stream).count stream) with
    | some reason => exact ⟨[], kept c, kept d⟩
    | none =>
      exact ⟨[⟨stream, text⟩], congrArg (_ :: ·) (kept c), congrArg (_ :: ·) (kept d)⟩

/-- An instruction that does not dump makes the same writes under a mapped order. -/
theorem Machine.Alike.step_same (devices : Devices) (labels : Labels) (h : m.Alike f n)
    {i : Instruction} (plain : i.opcode ≠ .dump) :
    m.console.GainSame (m.step devices labels i).machine.console
      n.console (n.step devices labels (i.reorder f)).machine.console := by
  -- An instruction that cannot be reduced writes nothing, and others what their effect writes.
  unfold Machine.step
  rw [i.effect_reorder, h.frames]
  cases reduced : i.effect labels m.frames with
  | error cause => exact ⟨[], rfl, rfl⟩
  | ok effect =>
    simp only [Outcome.console_complete]
    -- What is neither quiet nor a dump writes a text that the effect itself carries.
    by_cases quiet : effect.isQuiet = true
    · rw [Machine.perform_console devices quiet, Machine.perform_console devices quiet]
      exact ⟨[], rfl, rfl⟩
    · cases effect with
      | write stream text =>
        simp only [Machine.perform, Machine.console_write]
        exact h.console.write_same devices stream text
      | dump => exact absurd (Instruction.opcode_of_dump reduced) plain
      | _ => exact absurd rfl quiet

/-- A step that fetches no dump makes the same writes on images that differ in orders. -/
theorem Machine.Alike.advance_same (devices : Devices) (image : Image) (h : m.Alike f n)
    (plain : ∀ i, image.code[m.pc]? = some i → i.opcode ≠ .dump) :
    m.console.GainSame (m.advance devices image).machine.console
      n.console (n.advance devices (image.reorder f)).machine.console := by
  -- Past the last instruction nothing is written, and before it both fetch the same.
  unfold Machine.advance
  rw [image.fetch_reorder, congrArg (image.code[·]?) h.pc]
  cases found : image.code[m.pc]? with
  | none => exact ⟨[], rfl, rfl⟩
  | some i => exact h.fetched.step_same devices image.labels (plain i found)

/-- After any number of steps, machines on images that differ in orders are still alike. -/
theorem Machine.Alike.run (devices : Devices) (image : Image) (fuel : Nat) (h : m.Alike f n) :
    Outcome.Alike f (m.run devices image fuel) (n.run devices (image.reorder f) fuel) := by
  -- Each step keeps the machines alike, and so both runs end at the same step, if they end.
  induction fuel generalizing m n with
  | zero => exact .next h
  | succ fuel ih =>
    have stepped := h.advance devices image
    unfold Machine.run
    generalize m.advance devices image = first at stepped ⊢
    generalize n.advance devices (image.reorder f) = second at stepped ⊢
    cases stepped with
    | next alike => exact ih alike
    | exit code alike => exact .exit code alike
    | fault fault alike => exact .fault fault alike

end Lockstep

end ThreeAddress
