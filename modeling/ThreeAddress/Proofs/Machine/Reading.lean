import ThreeAddress.Proofs.Machine.FailingStep
import ThreeAddress.Proofs.Machine.InputLines
import ThreeAddress.Proofs.Machine.Linking
import ThreeAddress.Proofs.Machine.Lives
import ThreeAddress.Proofs.Machine.Locality

/-!
What runs learn about the input. Each read that succeeds takes one line, nothing else takes any, and
two runs that read lines with the same texts are the same but for what is left unread.
-/

namespace ThreeAddress

/-- A machine with another input. -/
def Machine.withInput (m : Machine) (input : List UInt8) : Machine :=
  { m with input }

/-- An outcome that shows a machine with another input. -/
def Outcome.withInput (input : List UInt8) : Outcome → Outcome
  | next m => next (m.withInput input)
  | exit code m => exit code (m.withInput input)
  | fault f m => fault f (m.withInput input)

/-- An ending that leaves behind a machine with another input. -/
def Ending.withInput (input : List UInt8) (e : Ending) : Ending :=
  { e with machine := e.machine.withInput input }

/-- Whether a run goes on after an outcome. -/
def Outcome.goesOn : Outcome → Bool
  | next _ => true
  | _ => false

/-- A run goes on exactly with a machine. -/
theorem Outcome.goesOn_iff {outcome : Outcome} :
    outcome.goesOn = true ↔ ∃ n, outcome = .next n := by
  -- Of the three outcomes only one goes on, and it shows the machine.
  cases outcome with
  | next n => exact iff_of_true rfl ⟨n, rfl⟩
  | exit code n => exact iff_of_false nofun nofun
  | fault f n => exact iff_of_false nofun nofun

/-- The input has no part in whether a run goes on. -/
@[simp] theorem Outcome.goesOn_withInput (input : List UInt8) (outcome : Outcome) :
    (outcome.withInput input).goesOn = outcome.goesOn := by
  cases outcome <;> rfl

/-- Counting an instruction as completed decides nothing about going on. -/
@[simp] theorem Outcome.goesOn_complete (opcode : Opcode) (outcome : Outcome) :
    (outcome.complete opcode).goesOn = outcome.goesOn := by
  cases outcome <;> rfl

/-- Counting an instruction as completed leaves the input alone. -/
theorem Outcome.withInput_complete (input : List UInt8) (opcode : Opcode) (outcome : Outcome) :
    (outcome.complete opcode).withInput input = (outcome.withInput input).complete opcode := by
  cases outcome <;> rfl

/-- A machine has the input that it has. -/
theorem Machine.withInput_self (m : Machine) : m.withInput m.input = m :=
  rfl

/-- The machine that an outcome shows has the input that it is given. -/
@[simp] theorem Outcome.machine_withInput (input : List UInt8) (outcome : Outcome) :
    (outcome.withInput input).machine = outcome.machine.withInput input := by
  cases outcome <;> rfl

namespace Machine

/-- The number of lines that the next step of a machine reads, which only a read can do. -/
def readsNext (devices : Devices) (image : Image) (m : Machine) : Nat :=
  match image.code[m.pc]? with
  | none => 0
  | some i => if i.opcode = .read ∧ (m.advance devices image).goesOn = true then 1 else 0

/-- The number of reads that succeed in a run of at most the given number of steps. -/
def reads (devices : Devices) (image : Image) : Nat → Machine → Nat
  | 0, _ => 0
  | fuel + 1, m =>
    match m.advance devices image with
    | .next n => m.readsNext devices image + n.reads devices image fuel
    | _ => 0

end Machine

namespace Program

/-- The number of reads that succeed in an execution of at most the given number of steps. -/
def reads (devices : Devices) (fuel : Nat) (p : Program) (m : Machine) : Nat :=
  match p.start m with
  | .error _ => 0
  | .ok (image, started) => started.reads devices image fuel

/--
The machines that executions of a program leave behind one after another, with the number of reads
that succeeded since the machine was new.
-/
inductive LeftBehindAfter (p : Program) (input : List UInt8) : Nat → Machine → Prop where
  | fresh : LeftBehindAfter p input 0 (.fresh input)
  | executed {devices : Devices} {fuel done : Nat} {m : Machine} {ending : Ending}
      (earlier : LeftBehindAfter p input done m) (ended : p.execute devices fuel m = some ending) :
      LeftBehindAfter p input (done + p.reads devices fuel m) ending.machine

end Program

namespace Machine

variable {devices : Devices} {image : Image} {m n : Machine} {i : Instruction}
  {input : List UInt8} {order : UInt64}

private theorem setFrames_withInput (result : Except FrameError Frames) :
    (m.withInput input).setFrames order result = (m.setFrames order result).withInput input := by
  -- The frames and the error come from the result, in which the input has no part.
  cases result <;> rfl

private theorem write_withInput (stream : Stream) (text : String) :
    (m.withInput input).write devices stream text =
      (m.write devices stream text).withInput input := by
  -- Whether a write is refused is decided by the console alone.
  simp only [Machine.write, withInput]
  split <;> rfl

private theorem popInto_withInput (x : Variable) :
    (m.withInput input).popInto order x = (m.popInto order x).withInput input := by
  -- Neither the data stack nor the variable is looked for in the input.
  simp only [popInto, withInput]
  split
  · rfl
  · split
    · rfl
    · rename_i value dataStack stacked
      exact setFrames_withInput (m := { m with dataStack }) (m.frames.assign x value)

private theorem backToCaller_withInput :
    (m.withInput input).backToCaller order = (m.backToCaller order).withInput input := by
  -- Whether there is a caller is decided by the stack of calls alone.
  simp only [backToCaller, withInput]
  split <;> rfl

/-- An effect that receives no line is the same for every input. -/
theorem perform_withInput {effect : Effect} (other : ∀ x t, effect ≠ .receive x t) :
    (m.withInput input).perform devices order effect =
      (m.perform devices order effect).withInput input := by
  -- No other effect looks at the input, and a dump does not show it.
  cases effect with
  | receive x t => exact absurd rfl (other x t)
  | skip | createFrame | push | call | jump | exit => rfl
  | pushFrame | popFrame | declare | assign => exact setFrames_withInput _
  | pop x => exact popInto_withInput x
  | ret => exact backToCaller_withInput
  | write stream text => exact write_withInput stream text
  | dump => exact write_withInput .err (m.dump order)

/-- Only a read receives a line. -/
theorem receive_of_read {effect : Effect} (kind : Opcode.read.mayHave effect = true) :
    ∃ x t, effect = .receive x t := by
  -- The table of effects has no other effect for a read.
  cases effect with
  | receive x t => exact ⟨x, t, rfl⟩
  | _ => simp [Opcode.mayHave] at kind

/-- A line is not read for a variable that cannot be assigned. -/
theorem receive_of_unknown {x : Variable} {e : FrameError} (unknown : m.frames.typeOf x = .error e)
    (t : DataType) : m.receive order x t = .fault (.raised order (.frame e)) m := by
  -- The type of the variable is asked for before the line.
  rw [Machine.receive, unknown]

/-- A line is read for any other variable. -/
theorem receive_of_known {x : Variable} {found : Option DataType} {t : DataType} {frames : Frames}
    (known : m.frames.typeOf x = .ok found)
    (assigned : m.frames.assign x (Input.value t (Input.next m.input).1) = .ok frames) :
    m.receive order x t = .next { m with frames, input := (Input.next m.input).2 } := by
  -- The type is known and the value can be assigned, so that nothing is left to fail.
  simp only [Machine.receive, known, assigned, setFrames]

/-- Carrying out a read on two inputs is the same, if it fails or finds the same text on both. -/
private theorem receive_withInput (x : Variable) (t : DataType)
    (same : (m.receive order x t).goesOn = true →
      (Input.next input).1 = (Input.next m.input).1) :
    (m.withInput input).receive order x t = (m.receive order x t).withInput
      (if (m.receive order x t).goesOn = true then (Input.next input).2 else input) := by
  -- Whether the variable can be assigned is found out before the input is looked at.
  cases known : m.frames.typeOf x with
  | error e =>
    rw [receive_of_unknown known, receive_of_unknown (show (m.withInput input).frames.typeOf x = _
      from known)]
    rfl
  | ok found =>
    obtain ⟨frames, assigned⟩ :=
      Frames.assign_of_typeOf known (Input.value t (Input.next m.input).1)
    have taken := @receive_of_known m order x found t frames known assigned
    rw [taken] at same ⊢
    rw [← same rfl] at assigned
    exact receive_of_known (m := m.withInput input) known assigned

/-- Carrying out an instruction is the same on two inputs, if the text that it reads is the same. -/
private theorem step_withInput {labels : Labels} (input : List UInt8)
    (same : i.opcode = .read → (m.step devices labels i).goesOn = true →
      (Input.next input).1 = (Input.next m.input).1) :
    (m.withInput input).step devices labels i = (m.step devices labels i).withInput
      (if i.opcode = .read ∧ (m.step devices labels i).goesOn = true then (Input.next input).2
        else input) := by
  -- The effect is the same, and only that of a read has to do with the input.
  have frames : (m.withInput input).frames = m.frames := rfl
  unfold Machine.step at same ⊢
  rw [frames]
  cases reduced : i.effect labels m.frames with
  | error cause => simp [Outcome.withInput, Outcome.goesOn]
  | ok effect =>
    have kind := i.effect_mayHave labels m.frames _ reduced
    simp only [reduced, Outcome.goesOn_complete] at same ⊢
    rw [Outcome.withInput_complete]
    by_cases op : i.opcode = .read
    · obtain ⟨x, t, rfl⟩ := receive_of_read (op ▸ kind)
      simp only [op, true_and]
      exact congrArg _ (receive_withInput x t (same op))
    · have other : ∀ x t, effect ≠ .receive x t := by
        rintro x t rfl
        exact op (Opcode.mayHave_receive.mp kind)
      simp only [op, false_and, if_false]
      rw [perform_withInput other]

/-- One step on two inputs is the same, if it reads none of them or the same text from both. -/
theorem advance_withInput (input : List UInt8)
    (same : m.readsNext devices image = 1 → Input.textAt? input 0 = Input.textAt? m.input 0) :
    (m.withInput input).advance devices image =
      (m.advance devices image).withInput
        (Input.dropLines (m.readsNext devices image) input) := by
  -- Both machines fetch the same instruction, for the input tells no position.
  rw [← Input.next_fst, ← Input.next_fst] at same
  cases fetched : image.code[m.pc]? with
  | none =>
    simp [Machine.advance, readsNext, fetched, withInput, Outcome.withInput]
  | some i =>
    have step (a : Machine) (here : a.pc = m.pc) : a.advance devices image =
        { a with pc := m.pc + 1 }.step devices image.labels i := by
      rw [Machine.advance, here, fetched]
    simp only [readsNext, fetched] at same ⊢
    rw [step m rfl] at same ⊢
    rw [step (m.withInput input) rfl]
    refine (step_withInput (m := { m with pc := m.pc + 1 }) input ?_).trans ?_
    · intro op goesOn
      exact same (if_pos ⟨op, goesOn⟩)
    · congr 1
      split
      · rw [Input.dropLines_one]
      · rw [Input.dropLines_zero]

/-- What a step leaves of the input is all but the lines that it reads. -/
theorem advance_input (devices : Devices) (image : Image) (m : Machine) :
    (m.advance devices image).machine.input =
      Input.dropLines (m.readsNext devices image) m.input := by
  -- The same step is looked at twice, so that the texts are the same.
  have taken := @advance_withInput devices image m m.input fun _ => rfl
  rw [withInput_self] at taken
  rw [taken, Outcome.machine_withInput]
  rfl

/-- A step that fails reads nothing, and neither does one that ends the run. -/
theorem readsNext_of_not_goesOn (ends : (m.advance devices image).goesOn ≠ true) :
    m.readsNext devices image = 0 := by
  -- A line is counted only for a step that goes on.
  unfold readsNext
  split
  · rfl
  · rw [if_neg fun both => ends both.2]

/-- A step that carries out another operation than a read reads nothing. -/
theorem readsNext_of_ne (fetched : image.code[m.pc]? = some i) (other : i.opcode ≠ .read) :
    m.readsNext devices image = 0 := by
  -- A line is counted only where a read was fetched.
  simp [readsNext, fetched, other]

private theorem readsNext_withInput
    (same : m.readsNext devices image = 1 → Input.textAt? input 0 = Input.textAt? m.input 0) :
    (m.withInput input).readsNext devices image = m.readsNext devices image := by
  -- The step goes on with both inputs or with neither, and it fetches the same.
  unfold readsNext at same ⊢
  rw [advance_withInput input same, Outcome.goesOn_withInput]
  rfl

private theorem run_of_next (next : m.advance devices image = .next n) (fuel : Nat) :
    m.run devices image (fuel + 1) = n.run devices image fuel ∧
      m.reads devices image (fuel + 1) =
        m.readsNext devices image + n.reads devices image fuel := by
  -- A step that goes on hands over to a run of the other steps, with its count added.
  rw [Machine.run, reads, next]
  exact ⟨rfl, rfl⟩

private theorem run_of_ended (ended : (m.advance devices image).goesOn ≠ true) (fuel : Nat) :
    m.run devices image (fuel + 1) = m.advance devices image ∧
      m.reads devices image (fuel + 1) = 0 := by
  -- A step that does not go on is all there is of the run, and it counts for nothing.
  rw [Machine.run, reads]
  cases stepped : m.advance devices image with
  | next n => exact absurd (Outcome.goesOn_iff.mpr ⟨n, stepped⟩) ended
  | exit code n => exact ⟨rfl, rfl⟩
  | fault f n => exact ⟨rfl, rfl⟩

/-- Runs on two inputs are the same, if the lines that one of them reads have the same texts. -/
theorem run_withInput {fuel : Nat} (input : List UInt8)
    (same : ∀ index < m.reads devices image fuel,
      Input.textAt? input index = Input.textAt? m.input index) :
    (m.withInput input).run devices image fuel = (m.run devices image fuel).withInput
        (Input.dropLines (m.reads devices image fuel) input) ∧
      (m.withInput input).reads devices image fuel = m.reads devices image fuel := by
  -- After a step the two machines are still the same but for the lines that neither has read.
  induction fuel generalizing m input with
  | zero =>
    rw [reads, Input.dropLines_zero]
    exact ⟨rfl, rfl⟩
  | succ fuel ih =>
    by_cases goesOn : (m.advance devices image).goesOn = true
    · obtain ⟨n, next⟩ := Outcome.goesOn_iff.mp goesOn
      obtain ⟨ran, read⟩ := run_of_next next fuel
      rw [read] at same
      have first (reading : m.readsNext devices image = 1) :
          Input.textAt? input 0 = Input.textAt? m.input 0 := same 0 (by omega)
      have other := advance_withInput input first
      have left := advance_input devices image m
      rw [next] at other left
      obtain ⟨laterRan, laterRead⟩ :=
        ih (m := n) (Input.dropLines (m.readsNext devices image) input) (by
          intro index small
          rw [show n.input = _ from left, Input.textAt?_dropLines, Input.textAt?_dropLines]
          exact same _ (by omega))
      obtain ⟨otherRan, otherRead⟩ := run_of_next other fuel
      rw [ran, read, otherRan, otherRead, laterRan, laterRead, Input.dropLines_dropLines,
        readsNext_withInput first]
      exact ⟨rfl, rfl⟩
    · -- The step that ends the run reads nothing.
      have nothing := readsNext_of_not_goesOn goesOn
      have other := @advance_withInput devices image m input fun reading =>
        absurd (nothing.symm.trans reading) Nat.zero_ne_one
      rw [nothing] at other
      obtain ⟨ran, read⟩ := run_of_ended goesOn fuel
      have otherEnded : ((m.withInput input).advance devices image).goesOn ≠ true := by
        rw [other, Outcome.goesOn_withInput]
        exact goesOn
      obtain ⟨otherRan, otherRead⟩ := run_of_ended otherEnded fuel
      rw [ran, read, otherRan, otherRead]
      exact ⟨other, rfl⟩

/-- What a run leaves of the input is all but the lines that it reads. -/
theorem run_input (devices : Devices) (image : Image) (fuel : Nat) (m : Machine) :
    (m.run devices image fuel).machine.input =
      Input.dropLines (m.reads devices image fuel) m.input := by
  -- The same run is looked at twice, so that the texts are the same.
  have ran := (@run_withInput devices image m fuel m.input fun _ _ => rfl).1
  rw [withInput_self] at ran
  rw [ran, Outcome.machine_withInput]
  rfl

/-- A read after which the run goes on gives its variable what the first line is worth. -/
theorem advance_read (fetched : image.code[m.pc]? = some i) (op : i.opcode = .read)
    (next : m.advance devices image = .next n) :
    ∃ x t, i.destination = .ok x ∧ i.requested = .ok t ∧
      m.frames.assign x (Input.value t (Input.textAt? m.input 0)) = .ok n.frames ∧
      n.input = Input.dropLines 1 m.input := by
  -- A read has no other effect.
  obtain ⟨effect, after, reduced, carried, rfl⟩ := advance_next fetched next
  have kind := i.effect_mayHave _ _ _ reduced
  rw [op] at kind
  obtain ⟨x, t, rfl⟩ := receive_of_read kind
  obtain ⟨found, asked⟩ := Instruction.effect_receive reduced
  cases carried with
  | receive assigned =>
    rw [Input.next_fst] at assigned
    exact ⟨x, t, found, asked, assigned, (Input.dropLines_one _).symm⟩

/-- What the next step of a machine does with an input of which some lines were read before. -/
structure ReadsAt (devices : Devices) (image : Image) (input : List UInt8) (done : Nat)
    (m : Machine) : Prop where
  /-- What is not read yet are the lines behind these. -/
  unread : m.input = Input.dropLines done input
  /-- A read that succeeds takes the next line, and what does not convert becomes nil. -/
  read : ∀ i n, image.code[m.pc]? = some i → i.opcode = .read →
    m.advance devices image = .next n →
      ∃ x t, i.destination = .ok x ∧ i.requested = .ok t ∧
        m.frames.assign x (Input.value t (Input.textAt? input done)) = .ok n.frames ∧
        n.input = Input.dropLines (done + 1) input
  /-- A step that fails takes nothing. -/
  failed : ∀ fault n, m.advance devices image = .fault fault n → n.input = m.input
  /-- Other operations take nothing. -/
  other : ∀ i, image.code[m.pc]? = some i → i.opcode ≠ .read →
    (m.advance devices image).machine.input = m.input

/-- Steps take lines one after another, from what was left by those before. -/
theorem readsAt_of_unread {done : Nat} (unread : m.input = Input.dropLines done input) :
    ReadsAt devices image input done m where
  -- The lines behind those read already are counted on from there.
  unread := unread
  read i n fetched op next := by
    obtain ⟨x, t, found, asked, assigned, left⟩ := advance_read fetched op next
    rw [unread, Input.textAt?_dropLines, Nat.add_zero] at assigned
    rw [unread, Input.dropLines_dropLines] at left
    exact ⟨x, t, found, asked, assigned, left⟩
  failed fault n failed := by
    have taken := advance_input devices image m
    rw [readsNext_of_not_goesOn (by rw [failed]; nofun), Input.dropLines_zero,
      failed] at taken
    exact taken
  other i fetched other := by
    rw [advance_input, readsNext_of_ne fetched other, Input.dropLines_zero]

end Machine

namespace Program

variable {p : Program} {image : Image} {devices : Devices} {m : Machine}
  {input : List UInt8} {done fuel : Nat}

/-- An execution of a program that links reads what its run reads. -/
theorem reads_of_link (linked : p.link = .ok image) :
    p.reads devices fuel m = Machine.reads devices image fuel { m with pc := 0 } := by
  -- Linking succeeds, so that counting begins where the run does.
  rw [reads, start_eq_ok_iff.mpr ⟨linked, rfl⟩]

/-- Executions on two inputs are the same, if the lines that one reads have the same texts. -/
theorem execute_withInput (input : List UInt8)
    (same : ∀ index < p.reads devices fuel m,
      Input.textAt? input index = Input.textAt? m.input index) :
    p.execute devices fuel (m.withInput input) =
      (p.execute devices fuel m).map
        (Ending.withInput (Input.dropLines (p.reads devices fuel m) input)) := by
  cases linked : p.link with
  | error fault =>
    -- Nothing is run, and so nothing is read.
    simp [execute, reads, start, linked, Bind.bind, Except.bind, Ending.withInput]
  | ok image =>
    rw [reads_of_link linked] at same ⊢
    have ran := (Machine.run_withInput input same).1
    rw [execute, execute, start_eq_ok_iff.mpr ⟨linked, rfl⟩, start_eq_ok_iff.mpr ⟨linked, rfl⟩]
    dsimp only
    rw [show { m.withInput input with pc := 0 } = Machine.withInput { m with pc := 0 } input from
      rfl, ran]
    cases Machine.run devices image fuel { m with pc := 0 } <;> rfl

/-- What an execution leaves of the input is all but the lines that it reads. -/
theorem execute_input {ending : Ending} (ended : p.execute devices fuel m = some ending) :
    ending.machine.input = Input.dropLines (p.reads devices fuel m) m.input := by
  -- The same execution is looked at twice, so that the texts are the same.
  have executed := @execute_withInput p devices m fuel m.input fun _ _ => rfl
  rw [Machine.withInput_self, ended] at executed
  exact congrArg (fun e => e.machine.input) (Option.some.inj executed)

/-- Between executions, what is left of the input is all but the lines that were read so far. -/
theorem LeftBehindAfter.input_eq (h : p.LeftBehindAfter input done m) :
    m.input = Input.dropLines done input := by
  -- Each execution drops as many lines as it reads from what the earlier ones left.
  induction h with
  | fresh => exact (Input.dropLines_zero input).symm
  | executed earlier ended ih => rw [execute_input ended, ih, Input.dropLines_dropLines]

/-- An execution reads as many lines of another input, if they have the same texts. -/
theorem reads_withInput (input : List UInt8)
    (same : ∀ index < p.reads devices fuel m,
      Input.textAt? input index = Input.textAt? m.input index) :
    p.reads devices fuel (m.withInput input) = p.reads devices fuel m := by
  -- Whether a program links has nothing to do with the machine.
  cases linked : p.link with
  | error fault => simp [reads, start, linked, Bind.bind, Except.bind]
  | ok image =>
    rw [reads_of_link linked] at same ⊢
    rw [reads_of_link linked]
    exact (Machine.run_withInput input same).2

/-- The lives of a machine on two inputs are the same, if the lines of one have the same texts. -/
theorem LeftBehindAfter.withInput {other : List UInt8} (h : p.LeftBehindAfter input done m)
    (same : ∀ index < done, Input.textAt? other index = Input.textAt? input index) :
    p.LeftBehindAfter other done (m.withInput (Input.dropLines done other)) := by
  induction h with
  | fresh =>
    rw [Input.dropLines_zero]
    exact .fresh
  | @executed devices fuel done m ending earlier ended ih =>
    -- The lines that the latest execution reads are among those that are left of both inputs.
    have latest : ∀ index < p.reads devices fuel m,
        Input.textAt? (Input.dropLines done other) index = Input.textAt? m.input index := by
      intro index small
      rw [earlier.input_eq, Input.textAt?_dropLines, Input.textAt?_dropLines]
      exact same _ (by omega)
    have again := ih fun index small => same index (by omega)
    have executed := execute_withInput _ latest
    rw [ended, Option.map_some] at executed
    have counted := LeftBehindAfter.executed again executed
    rw [reads_withInput _ latest] at counted
    rwa [Ending.withInput, Input.dropLines_dropLines] at counted

/-- The life of a machine is the same if all line feeds get a carriage return. -/
theorem LeftBehindAfter.withReturns (h : p.LeftBehindAfter input done m)
    (plain : ∀ line ∈ Input.lines input, ¬ [Input.carriageReturn, Input.lineFeed] <:+ line) :
    p.LeftBehindAfter (Input.withReturns input) done
      (m.withInput (Input.withReturns m.input)) := by
  -- What is left over has returns where the whole input has, and all texts stay the same.
  rw [h.input_eq, ← Input.dropLines_withReturns]
  exact h.withInput fun index _ => Input.textAt?_withReturns plain index

/-- Every step of an execution takes lines behind those that were read before it. -/
theorem LeftBehindAfter.readsAt {steps : Nat} {last : Machine} (h : p.LeftBehindAfter input done m)
    (ran : Machine.run devices image steps { m with pc := 0 } = .next last) :
    last.ReadsAt devices image input
      (done + Machine.reads devices image steps { m with pc := 0 }) := by
  apply Machine.readsAt_of_unread
  -- The run has read behind what executions before it have left.
  have unread := Machine.run_input devices image steps { m with pc := 0 }
  rw [ran] at unread
  rw [show last.input = _ from unread, h.input_eq, Input.dropLines_dropLines]

end Program

/-- A program that reads a line into a frame of its own, so that it can be executed again. -/
def readLine : Program :=
  { instructions := [⟨.createFrame, 1, []⟩, ⟨.defVar, 2, [.var ⟨.temporaryFrame, "x"⟩]⟩,
      ⟨.read, 3, [.var ⟨.temporaryFrame, "x"⟩, .type .string]⟩] }

end ThreeAddress
