import ThreeAddress.Proofs.Language.Insertion
import ThreeAddress.Proofs.Machine.Agreement
import ThreeAddress.Proofs.Machine.Messages
import ThreeAddress.Proofs.Machine.Operands

/-!
Definitions of labels have no effect. A program with one more definition takes one more step each
time it comes to it, and does the same otherwise, at positions that the definition has shifted.
-/

namespace ThreeAddress

/-- An effect with a shifted target. -/
def Effect.shift (place : Nat) : Effect → Effect
  | call target => call (shifted place target)
  | jump target => jump (shifted place target)
  | effect => effect

/-- Another image has one more definition of a label, and is shifted behind its place. -/
structure Image.Shifted (place : Nat) (image other : Image) : Prop where
  moved : ∀ position : Nat, other.code[shifted place position]? = image.code[position]?
  added : ∃ order name, other.code[place]? = some ⟨.label, order, [.label name]⟩
  targets : ∀ (position : Nat) (i : Instruction), image.code[position]? = some i →
    i.target other.labels = (i.target image.labels).map (shifted place)

/--
One machine shadows another if they differ in positions, in the operation completed last and in what
was written. The positions of calls are shifted.
-/
structure Machine.Shadows (place : Nat) (m n : Machine) : Prop where
  frames : n.frames = m.frames
  dataStack : n.dataStack = m.dataStack
  callStack : n.callStack = m.callStack.map (shifted place)
  executed : n.executed = m.executed
  input : n.input = m.input
  outCount : n.console.outCount = m.console.outCount
  errCount : n.console.errCount = m.console.errCount

/-- A shadow follows a machine if its position is shifted, or is that of the definition itself. -/
structure Machine.Follows (place : Nat) (m n : Machine) : Prop extends m.Shadows place n where
  pc : n.pc = shifted place m.pc ∨ m.pc = place ∧ n.pc = place

/-- Two outcomes are of one kind and show machines of which one follows the other. -/
inductive Outcome.Follows (place : Nat) : Outcome → Outcome → Prop where
  | next {m n : Machine} (follows : m.Follows place n) : Follows place (.next m) (.next n)
  | exit {m n : Machine} (code : Nat) (follows : m.Follows place n) :
      Follows place (.exit code m) (.exit code n)
  | fault {m n : Machine} (fault : Fault) (follows : m.Follows place n) :
      Follows place (.fault fault m) (.fault fault n)

/-- Two endings have one result and leave machines behind of which one follows the other. -/
structure Ending.Follows (place : Nat) (a b : Ending) : Prop where
  result : b.result = a.result
  machine : a.machine.Follows place b.machine

/-- Two messages are one text, or dumps of one order which show a machine and its shadow. -/
inductive Message.Follows (place : Nat) : Message → Message → Prop where
  | text (stream : Stream) (content : String) :
      Follows place (.text stream content) (.text stream content)
  | dump {m n : Machine} (order : UInt64) (shadows : m.Shadows place n)
      (pc : n.pc = shifted place m.pc) : Follows place (.dump order m) (.dump order n)

namespace Instruction

variable {i : Instruction} {labels others : Labels} {place : Nat}

/-- Where the target is shifted, a branch goes there, and for the same reasons. -/
theorem branching_shift (targets : i.target others = (i.target labels).map (shifted place))
    (frames : Frames) (wanted : Bool) :
    i.branching others frames wanted =
      (i.branching labels frames wanted).map (Effect.shift place) := by
  -- The label comes first, and the two sources are read as before.
  unfold branching
  rw [targets]
  cases i.target labels with
  | error cause => rfl
  | ok target =>
    cases i.value frames 1 with
    | error cause => rfl
    | ok a =>
      cases i.value frames 2 with
      | error cause => rfl
      | ok b =>
        simp only [Bind.bind, Except.bind, Except.map]
        cases a.equals? b with
        | none => rfl
        | some equal => by_cases taken : equal = wanted <;> simp [taken] <;> rfl

/-- Where targets are shifted, effects are. -/
theorem effect_shift (targets : i.target others = (i.target labels).map (shifted place))
    (frames : Frames) :
    i.effect others frames = (i.effect labels frames).map (Effect.shift place) := by
  -- A position comes into an effect only where a target is looked up.
  by_cases plain : i.opcode.isJump = false
  · -- Nothing but a jump has a target.
    rw [effect_of_not_isJump plain labels others]
    cases reduced : i.effect labels frames with
    | error cause => rfl
    | ok effect =>
      have kind := i.effect_mayHave _ _ _ reduced
      cases effect with
      | call target => simp [Opcode.mayHave_call.mp kind, Opcode.isJump] at plain
      | jump target =>
        rcases Opcode.mayHave_jump.mp kind with op | op | op <;> simp [op, Opcode.isJump] at plain
      | _ => rfl
  · unfold effect
    cases op : i.opcode with
    | call | jump =>
      dsimp only
      rw [targets]
      cases i.target labels <;> rfl
    | jumpIfEq => exact branching_shift targets frames true
    | jumpIfNeq => exact branching_shift targets frames false
    | _ => simp [op, Opcode.isJump] at plain

end Instruction

/-- What follows an instruction that is shifted is shifted as well, or is the definition. -/
theorem shifted_succ (place position : Nat) :
    shifted place position + 1 = shifted place (position + 1) ∨
      position + 1 = place ∧ shifted place position + 1 = place := by
  -- The definition stands right behind the last instruction before its place.
  unfold shifted
  split
  · by_cases last : position + 1 = place
    · exact .inr ⟨last, last⟩
    · exact .inl (if_pos (by omega)).symm
  · exact .inl (if_neg (by omega)).symm

namespace Machine

variable {place : Nat} {devices : Devices} {m n : Machine}

/-- Machines of which one follows the other do so after a text is written, or do not go on. -/
theorem Follows.write (devices : Devices) (h : m.Follows place n) (stream : Stream)
    {s t : String} (empty : t = "" ↔ s = "") :
    Outcome.Follows place (m.write devices stream s) (n.write devices stream t) := by
  -- Whether a text is written depends on its being empty, and a refusal on the count of writes.
  by_cases nothing : s = ""
  · -- An empty text is no write, neither here nor there.
    rw [nothing, empty.mpr nothing]
    exact .next h
  · -- The device is asked with one count.
    have counts : n.console.count stream = m.console.count stream := by
      cases stream with
      | out => exact h.outCount
      | err => exact h.errCount
    rw [write_of_ne_empty nothing, write_of_ne_empty fun other => nothing (empty.mp other), counts]
    cases devices.refusal stream (m.console.count stream + 1) with
    | some reason =>
      cases stream with
      | out => exact .fault _ { h with outCount := congrArg (· + 1) h.outCount }
      | err => exact .fault _ { h with errCount := congrArg (· + 1) h.errCount }
    | none =>
      cases stream with
      | out => exact .next { h with outCount := congrArg (· + 1) h.outCount }
      | err => exact .next { h with errCount := congrArg (· + 1) h.errCount }

/-- Installing the frames of one result keeps a machine behind the one it follows. -/
theorem Follows.setFrames (h : m.Follows place n) (order : UInt64)
    (result : Except FrameError Frames) :
    Outcome.Follows place (m.setFrames order result) (n.setFrames order result) := by
  -- The frames and the error come from the result, which is one and the same.
  cases result with
  | error e => exact .fault _ h
  | ok frames => exact .next { h with frames := rfl }

/-- Assigning the next line of input keeps a machine behind the one it follows. -/
theorem Follows.receive (h : m.Follows place n) (order : UInt64) (x : Variable) (t : DataType) :
    Outcome.Follows place (m.receive order x t) (n.receive order x t) := by
  -- Both machines have the same frames and find the same line.
  unfold Machine.receive
  rw [h.frames, h.input]
  split
  · exact .fault _ h
  · refine setFrames ?_ order _
    exact { h with frames := rfl, input := rfl }

/-- Assigning the top of the data stack keeps a machine behind the one it follows. -/
theorem Follows.popInto (h : m.Follows place n) (order : UInt64) (x : Variable) :
    Outcome.Follows place (m.popInto order x) (n.popInto order x) := by
  -- Both machines have the same frames and the same value on top.
  unfold Machine.popInto
  rw [h.frames, h.dataStack]
  split
  · exact .fault _ h
  · split
    · exact .fault _ h
    · refine setFrames ?_ order _
      exact { h with frames := rfl, dataStack := rfl }

/-- Returning to a caller keeps a machine behind the one it follows. -/
theorem Follows.backToCaller (h : m.Follows place n) (order : UInt64) :
    Outcome.Follows place (m.backToCaller order) (n.backToCaller order) := by
  have calls := h.callStack
  unfold Machine.backToCaller
  cases called : m.callStack with
  | nil =>
    rw [called] at calls
    rw [calls]
    exact .fault _ h
  | cons position callStack =>
    -- What comes behind the call is shifted with it, or is the definition.
    rw [called] at calls
    rw [calls]
    exact .next { h with callStack := rfl, pc := shifted_succ place position }

/-- Carrying out a shifted effect keeps a machine behind the one it follows. -/
theorem Follows.perform (devices : Devices) (h : m.Follows place n)
    (fetched : n.pc - 1 = shifted place (m.pc - 1)) (order : UInt64) (effect : Effect) :
    Outcome.Follows place (m.perform devices order effect)
      (n.perform devices order (effect.shift place)) := by
  -- Every effect reads fields that agree, but for the position of a call and for a dump.
  cases effect with
  | skip => exact .next h
  | createFrame => exact .next { h with frames := congrArg Frames.create h.frames }
  | pushFrame =>
    simp only [Effect.shift, Machine.perform, h.frames]
    exact h.setFrames order _
  | popFrame =>
    simp only [Effect.shift, Machine.perform, h.frames]
    exact h.setFrames order _
  | declare x =>
    simp only [Effect.shift, Machine.perform, h.frames]
    exact h.setFrames order _
  | assign x value =>
    simp only [Effect.shift, Machine.perform, h.frames]
    exact h.setFrames order _
  | receive x t => exact h.receive order x t
  | push value => exact .next { h with dataStack := congrArg (value :: ·) h.dataStack }
  | pop x => exact h.popInto order x
  | call target =>
    -- The call is put aside where it stands.
    exact .next { h with callStack := congrArg₂ List.cons fetched h.callStack, pc := .inl rfl }
  | ret => exact h.backToCaller order
  | jump target => exact .next { h with pc := .inl rfl }
  | write stream text => exact h.write devices stream Iff.rfl
  | dump =>
    exact h.write devices .err (iff_of_false (dump_ne_empty n order) (dump_ne_empty m order))
  | exit code => exact .exit code h

/-- Counting an instruction as completed keeps a machine behind the one it follows. -/
theorem Follows.complete (h : m.Follows place n) (opcode : Opcode) :
    Follows place (m.complete opcode) (n.complete opcode) := by
  -- Both machines count, and they had counted the same.
  refine { h with executed := ?_ }
  simp only [Machine.complete, h.executed]

end Machine

/-- Counting an instruction as completed keeps outcomes of one kind. -/
theorem Outcome.Follows.complete {place : Nat} {a b : Outcome} (h : a.Follows place b)
    (opcode : Opcode) : Follows place (a.complete opcode) (b.complete opcode) := by
  -- Counting changes no outcome but the machine that it shows.
  cases h with
  | next follows => exact .next (follows.complete opcode)
  | exit code follows => exact .exit code (follows.complete opcode)
  | fault fault follows => exact .fault fault follows

/-- Two outcomes of one kind amount to endings of one result, or to none. -/
theorem Outcome.Follows.ending {place : Nat} {a b : Outcome} (h : a.Follows place b)
    (devices : Devices) :
    Option.Rel (Ending.Follows place) (Program.ending devices a) (Program.ending devices b) := by
  -- Only what does not go on is an ending, and its result does not show the machine.
  cases h with
  | next follows => exact .none
  | exit code follows => exact .some ⟨rfl, follows⟩
  | fault fault follows => exact .some ⟨rfl, follows⟩

namespace Machine

/-- Two runs have come to outcomes of one kind, and their messages correspond one by one. -/
structure RunsAlike (devices : Devices) (place : Nat) (image other : Image) (fuel more : Nat)
    (m n : Machine) : Prop where
  outcome : (m.run devices image fuel).Follows place (n.run devices other more)
  messages : List.Forall₂ (Message.Follows place)
    (m.messages devices image fuel) (n.messages devices other more)

variable {place : Nat} {devices : Devices} {image other : Image} {m n m' n' : Machine}

/-- Carrying out an instruction with a shifted target keeps a machine behind the one it follows. -/
theorem Follows.step (devices : Devices) (h : m.Follows place n)
    (fetched : n.pc - 1 = shifted place (m.pc - 1)) {i : Instruction} {labels others : Labels}
    (targets : i.target others = (i.target labels).map (shifted place)) :
    Outcome.Follows place (m.step devices labels i) (n.step devices others i) := by
  -- The instruction fails to be reduced for one cause, or has effects with one target shifted.
  unfold Machine.step
  rw [h.frames, i.effect_shift targets]
  cases i.effect labels m.frames with
  | error cause => exact .fault _ h
  | ok effect => exact (h.perform devices fetched i.order effect).complete i.opcode

/-- A shadow at the shifted position takes the step of the machine that it follows. -/
theorem Shadows.advance (devices : Devices) (shift : image.Shifted place other)
    (h : m.Shadows place n) (pc : n.pc = shifted place m.pc) :
    Outcome.Follows place (m.advance devices image) (n.advance devices other) := by
  -- Both fetch one instruction, or are behind the last one.
  unfold Machine.advance
  rw [pc, shift.moved]
  cases fetched : image.code[m.pc]? with
  | none => exact .exit 0 { h with pc := .inl pc }
  | some i =>
    have moved : Follows place { m with pc := m.pc + 1 } { n with pc := n.pc + 1 } :=
      { h with pc := pc ▸ shifted_succ place m.pc }
    rw [← pc]
    exact moved.step devices pc (shift.targets m.pc i fetched)

/-- A shadow at the shifted position has the message of the machine that it follows. -/
theorem Shadows.message? (shift : image.Shifted place other) (h : m.Shadows place n)
    (pc : n.pc = shifted place m.pc) :
    Option.Rel (Message.Follows place) (m.message? image) (n.message? other) := by
  -- A shift changes only effects without a message.
  unfold Machine.message?
  rw [pc, shift.moved]
  cases fetched : image.code[m.pc]? with
  | none => exact .none
  | some i =>
    dsimp only
    rw [h.frames, i.effect_shift (shift.targets m.pc i fetched)]
    cases i.effect image.labels m.frames with
    | error cause => exact .none
    | ok effect =>
      cases effect with
      | write stream text =>
        simp only [Except.map, Effect.shift, Effect.message?]
        split
        · exact .none
        · exact .some (.text stream text)
      | dump => exact .some (.dump i.order h pc)
      | _ => exact .none

/-- A shadow that is at the definition passes it, and is at the shifted position then. -/
theorem Follows.advance_pending (devices : Devices) (shift : image.Shifted place other)
    (h : m.Follows place n) (pending : m.pc = place ∧ n.pc = place) :
    ∃ n', n.advance devices other = .next n' ∧ n.message? other = none ∧
      m.Shadows place n' ∧ n'.pc = shifted place m.pc := by
  -- Passing a definition is not counted, and moves nothing but the position.
  obtain ⟨order, name, found⟩ := shift.added
  refine ⟨{ n with pc := n.pc + 1, last := some .label }, ?_, ?_, { h with }, ?_⟩
  · rw [Machine.advance, pending.2, found]
    rfl
  · rw [Machine.message?, pending.2, found]
    rfl
  · simp [shifted, pending.1, pending.2]

/-- A run that passes the definition first does what the other run does. -/
theorem RunsAlike.behind {fuel more : Nat} (h : RunsAlike devices place image other fuel more m n')
    (next : n.advance devices other = .next n') (silent : n.message? other = none) :
    RunsAlike devices place image other fuel (more + 1) m n := by
  -- The definition takes one more step and has no message.
  constructor
  · rw [Machine.run, next]
    exact h.outcome
  · rw [Machine.messages, next, silent]
    exact h.messages

/-- Runs are alike if they begin with steps that are alike and lead to runs that are alike. -/
theorem RunsAlike.cons {fuel more : Nat} (h : RunsAlike devices place image other fuel more m' n')
    (first : m.advance devices image = .next m') (second : n.advance devices other = .next n')
    (messages : Option.Rel (Message.Follows place) (m.message? image) (n.message? other)) :
    RunsAlike devices place image other (fuel + 1) (more + 1) m n := by
  -- The first messages are both there or both missing, and the others follow.
  constructor
  · rw [Machine.run, Machine.run, first, second]
    exact h.outcome
  · rw [Machine.messages, Machine.messages, first, second]
    dsimp only
    generalize m.message? image = a at messages ⊢
    generalize n.message? other = b at messages ⊢
    cases messages with
    | none => exact h.messages
    | some alike => exact .cons alike h.messages

/-- Runs are alike if they end with steps that are alike. -/
theorem RunsAlike.of_ended
    (stepped : (m.advance devices image).Follows place (n.advance devices other))
    (ended : ∀ m', m.advance devices image ≠ .next m') (fuel more : Nat) :
    RunsAlike devices place image other (fuel + 1) (more + 1) m n := by
  -- Nothing comes behind a step that ends its run, neither a state nor a message.
  constructor
  · rw [Machine.run, Machine.run]
    generalize m.advance devices image = first at stepped ended ⊢
    generalize n.advance devices other = second at stepped ⊢
    cases stepped with
    | next follows => exact absurd rfl (ended _)
    | exit code follows => exact .exit code follows
    | fault fault follows => exact .fault fault follows
  · rw [Machine.messages, Machine.messages]
    generalize m.advance devices image = first at stepped ended ⊢
    generalize n.advance devices other = second at stepped ⊢
    cases stepped with
    | next follows => exact absurd rfl (ended _)
    | exit | fault => exact .nil

/-- A step of both machines leads on to such machines, or ends runs of every length alike. -/
theorem Shadows.advance_cases (devices : Devices) (shift : image.Shifted place other)
    (h : m.Shadows place n) (pc : n.pc = shifted place m.pc) :
    (∃ m' n', m.advance devices image = .next m' ∧ n.advance devices other = .next n' ∧
      m'.Follows place n') ∨
    ∀ fuel more, RunsAlike devices place image other (fuel + 1) (more + 1) m n := by
  -- The two steps have outcomes of one kind, so that one goes on exactly if the other does.
  have stepped := h.advance devices shift pc
  by_cases goesOn : ∃ m', m.advance devices image = .next m'
  · obtain ⟨m', first⟩ := goesOn
    rw [first] at stepped
    generalize n.advance devices other = second at stepped ⊢
    cases stepped with
    | @next _ n' follows => exact .inl ⟨m', n', first, rfl, follows⟩
  · exact .inr (RunsAlike.of_ended stepped fun m' first => goesOn ⟨m', first⟩)

/-- Whatever a run does, the run of a machine that follows does as well. -/
theorem Follows.exists_more (devices : Devices) (shift : image.Shifted place other) (fuel : Nat)
    (h : m.Follows place n) : ∃ more, RunsAlike devices place image other fuel more m n := by
  -- Each step of the run takes one step of the other, or two where the definition is passed.
  induction fuel generalizing m n with
  | zero => exact ⟨0, .next h, .nil⟩
  | succ fuel ih =>
    have settled {n : Machine} (shadows : m.Shadows place n) (pc : n.pc = shifted place m.pc) :
        ∃ more, RunsAlike devices place image other (fuel + 1) more m n := by
      rcases shadows.advance_cases devices shift pc with ⟨m', n', first, second, later⟩ | ended
      · obtain ⟨more, alike⟩ := ih later
        exact ⟨more + 1, alike.cons first second (shadows.message? shift pc)⟩
      · exact ⟨1, ended fuel 0⟩
    rcases h.pc with pc | pending
    · exact settled h.toShadows pc
    · -- The definition comes first, and takes one step.
      obtain ⟨n', next, silent, shadows, pc⟩ := h.advance_pending devices shift pending
      obtain ⟨more, alike⟩ := settled shadows pc
      exact ⟨more + 1, alike.behind next silent⟩

/-- Whatever the run of a machine that follows does, the run that it follows does as well. -/
theorem Follows.exists_fuel (devices : Devices) (shift : image.Shifted place other) (more : Nat)
    (h : m.Follows place n) : ∃ fuel, RunsAlike devices place image other fuel more m n := by
  -- Only where the definition is passed, no step is taken for it.
  induction more generalizing m n with
  | zero => exact ⟨0, .next h, .nil⟩
  | succ more ih =>
    rcases h.pc with pc | pending
    · rcases h.advance_cases devices shift pc with ⟨m', n', first, second, later⟩ | ended
      · obtain ⟨fuel, alike⟩ := ih later
        exact ⟨fuel + 1, alike.cons first second (h.message? shift pc)⟩
      · exact ⟨1, ended 0 more⟩
    · obtain ⟨n', next, silent, shadows, pc⟩ := h.advance_pending devices shift pending
      obtain ⟨fuel, alike⟩ := ih { shadows with pc := .inl pc }
      exact ⟨fuel, alike.behind next silent⟩

/-- A new machine follows itself, if only to a definition that stands before everything. -/
theorem follows_fresh (place : Nat) (input : List UInt8) :
    Follows place (.fresh input) (.fresh input) where
  -- At first nothing but the position is there to tell the machines apart.
  frames := rfl
  dataStack := rfl
  callStack := rfl
  executed := rfl
  input := rfl
  outCount := rfl
  errCount := rfl
  pc := by
    cases place with
    | zero => exact .inr ⟨rfl, rfl⟩
    | succ place => exact .inl rfl

end Machine

/-- Every place but that of the definition is where something was shifted to. -/
theorem exists_shifted {place position : Nat} (other : position ≠ place) :
    ∃ earlier, shifted place earlier = position := by
  -- Before the definition nothing moved, and behind it everything moved by one.
  by_cases before : position < place
  · exact ⟨position, if_pos before⟩
  · refine ⟨position - 1, ?_⟩
    unfold shifted
    rw [if_neg (by omega)]
    omega

namespace Program

variable {p q : Program} {order : UInt64} {name : String} {image other : Image}

/-- Labels that were defined before are found where they were shifted to. -/
theorem lookup_of_shifted {place : Nat} (linked : p.link = .ok image) (built : q.link = .ok other)
    (moved : ∀ position : Nat, other.code[shifted place position]? = image.code[position]?)
    (added : other.code[place]? = some ⟨.label, order, [.label name]⟩) {label : String}
    (old : label ≠ name) :
    other.labels.lookup label = (image.labels.lookup label).map (shifted place) := by
  -- The tables tell where definitions are, and the added one is of another label.
  ext position
  rw [Option.map_eq_some_iff, link_lookup built]
  constructor
  · rintro ⟨i, found, defined⟩
    have elsewhere : position ≠ place := by
      rintro rfl
      cases added.symm.trans found
      exact old (Option.some.inj defined).symm
    obtain ⟨earlier, rfl⟩ := exists_shifted elsewhere
    rw [moved] at found
    exact ⟨earlier, (link_lookup linked label earlier).mpr ⟨i, found, defined⟩, rfl⟩
  · rintro ⟨earlier, known, rfl⟩
    obtain ⟨i, found, defined⟩ := (link_lookup linked label earlier).mp known
    exact ⟨i, (moved earlier).trans found, defined⟩

/-- A program that links still does with a definition of a new label, and its image is shifted. -/
theorem AddsLabel.link (h : p.AddsLabel q order name) (linked : p.link = .ok image) :
    ∃ other, q.link = .ok other ∧ image.Shifted (p.placeOf order) other := by
  -- What linking looks for was sound, and still is.
  obtain ⟨sound, once⟩ := sound_of_link linked
  obtain ⟨other, built⟩ :=
    link_iff_only_undefined.mpr ((Defect.only_undefined_iff q).mpr (h.sound sound once))
  have distinct := (Defect.structural_eq_nil_iff.mp sound).2
  have moved (position : Nat) :
      other.code[shifted (p.placeOf order) position]? = image.code[position]? := by
    rw [(link_eq_ok_iff.mp built).2, (link_eq_ok_iff.mp linked).2, List.getElem?_toArray,
      List.getElem?_toArray]
    exact h.getElem?_sorted distinct position
  have added : other.code[p.placeOf order]? = some ⟨.label, order, [.label name]⟩ := by
    rw [(link_eq_ok_iff.mp built).2, List.getElem?_toArray]
    exact h.getElem?_place distinct
  refine ⟨other, built, moved, ⟨order, name, added⟩, fun position i found => ?_⟩
  have member := mem_of_link linked found
  unfold Instruction.target
  split
  · -- The label is not the new one, which no instruction names.
    rename_i label rest operands
    have old : label ≠ name := by
      rintro rfl
      exact h.newName i member (by simp [operands])
    rw [lookup_of_shifted linked built moved added old]
    cases image.labels.lookup label <;> rfl
  · rfl

/--
Defining a label has no effect.

A program that links does so with the definition of one more label, which is new and stands at an
order of its own. Whatever one program does the other does as well, in more steps or fewer, on every
input and on all devices: they write the same texts, dump the same states up to positions and to the
operation completed last, and come to the same end or to none.
-/
theorem labels_have_no_effect (linked : p.link = .ok image) (h : p.AddsLabel q order name) :
    ∃ other, q.link = .ok other ∧ image.Shifted (p.placeOf order) other ∧
      (∀ devices input,
        (∀ fuel, ∃ more,
          Machine.RunsAlike devices (p.placeOf order) image other fuel more
            (.fresh input) (.fresh input) ∧
          Option.Rel (Ending.Follows (p.placeOf order))
            (p.execute devices fuel (.fresh input)) (q.execute devices more (.fresh input))) ∧
        ∀ more, ∃ fuel,
          Machine.RunsAlike devices (p.placeOf order) image other fuel more
            (.fresh input) (.fresh input) ∧
          Option.Rel (Ending.Follows (p.placeOf order))
            (p.execute devices fuel (.fresh input)) (q.execute devices more (.fresh input))) ∧
      ∀ devices image fuel input,
        ((Machine.fresh input).run devices image fuel).machine.console.written.reverse =
          ((Machine.fresh input).messages devices image fuel).map Message.write := by
  obtain ⟨other, built, shift⟩ := h.link linked
  refine ⟨other, built, shift, fun devices input => ?_, ?_⟩
  · have fresh := Machine.follows_fresh (p.placeOf order) input
    -- An execution ends as its run does.
    have ends {fuel more : Nat} (alike : Machine.RunsAlike devices (p.placeOf order) image other
        fuel more (.fresh input) (.fresh input)) : Option.Rel (Ending.Follows (p.placeOf order))
          (p.execute devices fuel (.fresh input)) (q.execute devices more (.fresh input)) := by
      rw [execute_eq_ending, execute_eq_ending, outcome_of_link linked, outcome_of_link built]
      exact alike.outcome.ending devices
    constructor
    · intro fuel
      obtain ⟨more, alike⟩ := fresh.exists_more devices shift fuel
      exact ⟨more, alike, ends alike⟩
    · intro more
      obtain ⟨fuel, alike⟩ := fresh.exists_fuel devices shift more
      exact ⟨fuel, alike, ends alike⟩
  · intro devices image fuel input
    exact Machine.run_messages devices image fuel (.fresh input)

/-- A program that calls a function, which dumps the machine, and ends behind the call. -/
def callAndDump : Program :=
  { instructions := [⟨.call, 1, [.label "f"]⟩, ⟨.exit, 3, [.literal (.int 4)]⟩,
      ⟨.label, 4, [.label "f"]⟩, ⟨.dump, 5, []⟩, ⟨.ret, 6, []⟩] }

/-- The program that calls a function and dumps, ready to run. -/
def callAndDumpImage : Image :=
  { code := callAndDump.instructions.toArray, labels := [("f", 2)] }

/-- The same program with a label right behind the call. -/
def callAndDumpLabelled : Program :=
  { instructions := ⟨.label, 2, [.label "g"]⟩ :: callAndDump.instructions }

/-- The program ends as before although its function returns to another place. -/
theorem labels_have_no_effect_of_callAndDump :
    callAndDump.link = .ok callAndDumpImage ∧
    callAndDump.AddsLabel callAndDumpLabelled 2 "g" ∧
    ∃ more e, callAndDumpLabelled.execute .willing more (.fresh []) = some e ∧
      e.result = .ok 4 ∧ e.machine.executed = 4 := by
  -- Both runs are computed, since the orders are ascending as they stand.
  have sorted : callAndDump.sorted = callAndDump.instructions :=
    List.mergeSort_of_pairwise (by decide)
  have linked : callAndDump.link = .ok callAndDumpImage := by
    rw [link_eq_ok_iff, sorted]
    exact ⟨rfl, rfl⟩
  have adds : callAndDump.AddsLabel callAndDumpLabelled 2 "g" :=
    ⟨.refl _, by decide, by decide⟩
  obtain ⟨other, _, _, alike, _⟩ := labels_have_no_effect linked adds
  obtain ⟨more, _, ends⟩ := (alike .willing []).1 5
  have ended : ∃ m, callAndDump.execute .willing 5 (.fresh []) = some ⟨.ok 4, m⟩ ∧
      m.executed = 4 := by
    rw [execute_eq_ending, outcome_of_link linked]
    exact ⟨_, rfl, rfl⟩
  obtain ⟨m, ended, counted⟩ := ended
  rw [ended] at ends
  generalize executed : callAndDumpLabelled.execute .willing more (.fresh []) = ending at ends
  cases ends with
  | @some _ e follows =>
    refine ⟨linked, adds, more, e, executed, follows.result, ?_⟩
    exact follows.machine.executed.trans counted

end Program

end ThreeAddress
