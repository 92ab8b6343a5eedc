import ThreeAddress.Proofs.Machine.Operands
import ThreeAddress.Proofs.Machine.Places
import ThreeAddress.Proofs.Machine.Successes

/-!
The part of the state that belongs to an operation. A successful step changes no other part, and a
variable that it assigns takes a value that is computed from the machine before the step.
-/

namespace ThreeAddress

namespace Opcode

/-- The operations by which frames come, go or move. -/
def movesFrames : Opcode → Bool
  | createFrame | pushFrame | popFrame => true
  | _ => false

/-- The operations that assign a value to their first operand, which a declaration does not. -/
def assigns (opcode : Opcode) : Bool :=
  opcode.signature.head? = some .var ∧ opcode ≠ .defVar

/-- The operations that have nothing to do with frames, except that they may read them. -/
def keepsFrames (opcode : Opcode) : Bool :=
  !opcode.movesFrames && opcode ≠ .defVar && !opcode.assigns

/-- An operation keeps frames exactly if it does none of the three things. -/
theorem keepsFrames_iff {opcode : Opcode} : opcode.keepsFrames = true ↔
    opcode.movesFrames = false ∧ opcode ≠ .defVar ∧ opcode.assigns = false := by
  -- The operation is asked for the three things one after another.
  simp [keepsFrames, and_assoc]

/-- An operation that assigns neither moves frames nor declares. -/
theorem keeps_of_assigns {opcode : Opcode} (assigns : opcode.assigns = true) :
    opcode.movesFrames = false ∧ opcode ≠ .defVar := by
  -- Assigning has a signature of its own, which no such operation has.
  cases opcode <;> simp [Opcode.assigns, movesFrames, signature] at assigns ⊢

/-- An operation whose effect is to assign a value assigns one. -/
theorem assigns_of_mayHave {opcode : Opcode} {x : Variable} {value : Value}
    (kind : opcode.mayHave (.assign x value) = true) : opcode.assigns = true := by
  -- The table of effects has this effect for no operation without a destination.
  cases opcode <;> first | rfl | simp [mayHave] at kind

end Opcode

/-- How frames come, go and move, which they do as a whole. -/
inductive Frames.Moved : Opcode → Frames → Frames → Prop where
  /-- A new temporary frame takes the place of the old one, if there was any. -/
  | created (globals : Frame) (temporary : Option Frame) (locals : List Frame) :
      Moved .createFrame ⟨globals, temporary, locals⟩ ⟨globals, some .empty, locals⟩
  /-- The temporary frame becomes the topmost local one. -/
  | pushed (globals f : Frame) (locals : List Frame) :
      Moved .pushFrame ⟨globals, some f, locals⟩ ⟨globals, none, f :: locals⟩
  /-- The topmost local frame takes the place of the temporary one, if there was any. -/
  | popped (globals : Frame) (temporary : Option Frame) (f : Frame) (locals : List Frame) :
      Moved .popFrame ⟨globals, temporary, f :: locals⟩ ⟨globals, some f, locals⟩

/-- Suspending moves the temporary frame. -/
theorem Frames.push_moved {s t : Frames} (done : s.push = .ok t) : Moved .pushFrame s t := by
  -- There was a temporary frame, and it lies on top of the local ones now.
  obtain ⟨f, temporary, rfl⟩ := push_eq_ok_iff.mp done
  have moved := Moved.pushed s.globals f s.locals
  rwa [← temporary] at moved

/-- Taking back moves the topmost local frame. -/
theorem Frames.pop_moved {s t : Frames} (done : s.pop = .ok t) : Moved .popFrame s t := by
  -- There was a local frame on top, and it is the temporary one now.
  obtain ⟨f, rest, locals, rfl⟩ := pop_eq_ok_iff.mp done
  have moved := Moved.popped s.globals s.temporary f rest
  rwa [← locals] at moved

/-- The texts that a stream has received, latest first, and the number of writes it has seen. -/
def Console.side (c : Console) (stream : Stream) : List String × Nat :=
  ((c.written.filter fun w => w.stream = stream).map Write.text, c.count stream)

/-- What a stream has received stays as it is where a text is written to the other stream. -/
theorem Console.side_write {devices : Devices} {c written : Console} {stream other : Stream}
    {text : String} {refusal : Option String}
    (taken : c.write devices stream text = (refusal, written)) (differs : stream ≠ other) :
    written.side other = c.side other := by
  have same : (c.write devices stream text).2.side other = c.side other := by
    -- Neither the text nor the count of a write is about another stream.
    unfold Console.write
    split
    · rfl
    · dsimp only
      split
      · cases stream <;> cases other <;> first | rfl | exact absurd rfl differs
      · cases stream <;> cases other <;> first | rfl | exact absurd rfl differs
  rw [taken] at same
  exact same

/-- The value that an instruction gives to its destination, from the machine before the step. -/
inductive Instruction.Computes (i : Instruction) (m : Machine) : Value → Prop where
  | moved {value : Value} (op : i.opcode = .move) (source : i.value m.frames 1 = .ok value) :
      Computes i m value
  | transformed {a value : Value} (op : i.opcode ∈ [.not, .int2char, .strlen])
      (source : i.value m.frames 1 = .ok a) (result : i.opcode.transform a = .ok value) :
      Computes i m value
  | combined {a b value : Value}
      (op : i.opcode ∈ [.add, .sub, .mul, .idiv, .lt, .gt, .eq, .and, .or, .stri2int, .concat,
        .getChar])
      (left : i.value m.frames 1 = .ok a) (right : i.value m.frames 2 = .ok b)
      (result : i.opcode.combine a b = .ok value) : Computes i m value
  /-- The destination is a source as well. -/
  | replaced {text index replacement value : Value} (op : i.opcode = .setChar)
      (old : i.value m.frames 0 = .ok text) (place : i.value m.frames 1 = .ok index)
      (new : i.value m.frames 2 = .ok replacement)
      (result : replaceChar text index replacement = .ok value) : Computes i m value
  /-- A variable without a value has no type, whose name is empty. -/
  | named {t : Option DataType} (op : i.opcode = .type) (source : i.typeOf m.frames 1 = .ok t) :
      Computes i m (.string (t.elim "" DataType.name))
  | received {t : DataType} (op : i.opcode = .read) (asked : i.requested = .ok t) :
      Computes i m (Input.value t (Input.next m.input).1)
  | popped {value : Value} {dataStack : List Value} (op : i.opcode = .pops)
      (top : m.dataStack = value :: dataStack) : Computes i m value

/-- What an instruction changes in a machine, where the parts of other operations are kept. -/
structure Instruction.KeepsTo (i : Instruction) (m n : Machine) : Prop where
  dataStack : i.opcode ≠ .pushs → i.opcode ≠ .pops → n.dataStack = m.dataStack
  callStack : i.opcode ≠ .call → i.opcode ≠ .ret → n.callStack = m.callStack
  moved : i.opcode.movesFrames = true → Frames.Moved i.opcode m.frames n.frames
  /-- The same frames exist in the same places. -/
  places : i.opcode.movesFrames = false →
    ∀ place, (n.frames.at? place).isSome = (m.frames.at? place).isSome
  /-- Exactly one name is new, in the frame that it addresses, and it has no value. -/
  declared : i.opcode = .defVar →
    ∃ x, i.operands.head? = some (.var x) ∧ m.frames.held? x.frame.place x.name = none ∧
      n.frames.held? x.frame.place x.name = some none ∧ Frames.SameBut x m.frames n.frames
  /-- No name comes, and none goes. -/
  names : i.opcode.movesFrames = false → i.opcode ≠ .defVar →
    ∀ place name, (n.frames.held? place name).isSome = (m.frames.held? place name).isSome
  /-- A slot that holds something else belongs to the variable that is assigned. -/
  values : i.opcode.movesFrames = false → i.opcode ≠ .defVar →
    ∀ place name, n.frames.held? place name ≠ m.frames.held? place name →
      i.opcode.assigns = true ∧
        ∃ x, i.operands.head? = some (.var x) ∧ place = x.frame.place ∧ name = x.name
  /-- The value is computed from what was there before, even if the variable is a source. -/
  assigned : i.opcode.assigns = true →
    ∃ x value, i.operands.head? = some (.var x) ∧ i.Computes m value ∧
      n.frames.held? x.frame.place x.name = some (some value)
  input : i.opcode ≠ .read → n.input = m.input
  out : i.opcode ≠ .write → n.console.side .out = m.console.side .out
  err : i.opcode ≠ .dprint → i.opcode ≠ .dump → n.console.side .err = m.console.side .err
  pc : i.opcode ∉ [.jump, .jumpIfEq, .jumpIfNeq, .call, .ret] → n.pc = m.pc + 1

namespace Instruction

variable {i : Instruction} {labels : Labels} {m : Machine}

/-- What is assigned is computed, and goes to the destination. -/
theorem effect_assign {x : Variable} {value : Value}
    (reduced : i.effect labels m.frames = .ok (.assign x value)) :
    i.destination = .ok x ∧ i.Computes m value := by
  have kind := i.effect_mayHave labels m.frames _ reduced
  -- The sources are read one after another, and the destination is looked up last.
  cases op : i.opcode with
  | move =>
    simp only [Instruction.effect, op] at reduced
    obtain ⟨source, read, reduced⟩ := bind_eq_ok_iff.mp reduced
    obtain ⟨_, found, same⟩ := assigning_eq_ok_iff.mp reduced
    cases same
    exact ⟨found, .moved op read⟩
  | not | int2char | strlen =>
    simp only [Instruction.effect, op] at reduced
    obtain ⟨a, read, reduced⟩ := bind_eq_ok_iff.mp reduced
    obtain ⟨result, computed, reduced⟩ := bind_eq_ok_iff.mp reduced
    obtain ⟨_, found, same⟩ := assigning_eq_ok_iff.mp reduced
    cases same
    exact ⟨found, .transformed (by simp [op]) read (by rw [op]; exact computed)⟩
  | add | sub | mul | idiv | lt | gt | eq | and | or | stri2int | concat | getChar =>
    simp only [Instruction.effect, op] at reduced
    obtain ⟨a, left, reduced⟩ := bind_eq_ok_iff.mp reduced
    obtain ⟨b, right, reduced⟩ := bind_eq_ok_iff.mp reduced
    obtain ⟨result, computed, reduced⟩ := bind_eq_ok_iff.mp reduced
    obtain ⟨_, found, same⟩ := assigning_eq_ok_iff.mp reduced
    cases same
    exact ⟨found, .combined (by simp [op]) left right (by rw [op]; exact computed)⟩
  | setChar =>
    simp only [Instruction.effect, op] at reduced
    obtain ⟨text, old, reduced⟩ := bind_eq_ok_iff.mp reduced
    obtain ⟨index, place, reduced⟩ := bind_eq_ok_iff.mp reduced
    obtain ⟨replacement, new, reduced⟩ := bind_eq_ok_iff.mp reduced
    obtain ⟨result, computed, reduced⟩ := bind_eq_ok_iff.mp reduced
    obtain ⟨_, found, same⟩ := assigning_eq_ok_iff.mp reduced
    cases same
    exact ⟨found, .replaced op old place new computed⟩
  | type =>
    simp only [Instruction.effect, op] at reduced
    obtain ⟨t, asked, reduced⟩ := bind_eq_ok_iff.mp reduced
    obtain ⟨_, found, same⟩ := assigning_eq_ok_iff.mp reduced
    cases same
    refine ⟨found, ?_⟩
    cases t with
    | none => exact .named op asked
    | some t => exact .named op asked
  | _ => simp [op, Opcode.mayHave] at kind

/-- A line is read for the destination, under the type that was asked for. -/
theorem effect_receive {x : Variable} {t : DataType}
    (reduced : i.effect labels m.frames = .ok (.receive x t)) :
    i.destination = .ok x ∧ i.requested = .ok t := by
  -- The type is looked at before the destination.
  have op := Opcode.mayHave_receive.mp (i.effect_mayHave labels m.frames _ reduced)
  simp only [Instruction.effect, op] at reduced
  obtain ⟨_, asked, reduced⟩ := bind_eq_ok_iff.mp reduced
  obtain ⟨_, found, same⟩ := bind_eq_ok_iff.mp reduced
  cases same
  exact ⟨found, asked⟩

/-- What is taken from the stack goes to the destination. -/
theorem effect_pop {x : Variable} (reduced : i.effect labels m.frames = .ok (.pop x)) :
    i.destination = .ok x := by
  -- Only one operation takes a value off, and it does nothing but ask for its destination.
  have op := Opcode.mayHave_pop.mp (i.effect_mayHave labels m.frames _ reduced)
  simp only [Instruction.effect, op] at reduced
  obtain ⟨_, found, same⟩ := bind_eq_ok_iff.mp reduced
  cases same
  exact found

/-- What is declared is the destination. -/
theorem effect_declare {x : Variable} (reduced : i.effect labels m.frames = .ok (.declare x)) :
    i.destination = .ok x := by
  -- Only one operation declares, and it does nothing but ask for its destination.
  have op := Opcode.mayHave_declare.mp (i.effect_mayHave labels m.frames _ reduced)
  simp only [Instruction.effect, op] at reduced
  obtain ⟨_, found, same⟩ := bind_eq_ok_iff.mp reduced
  cases same
  exact found

end Instruction

/-- The ways in which an instruction can change the frames, where many leave them as they are. -/
inductive Instruction.Reframes (i : Instruction) (m : Machine) : Frames → Prop where
  | kept (keeps : i.opcode.keepsFrames = true) : Reframes i m m.frames
  | moved {frames : Frames} (moves : i.opcode.movesFrames = true)
      (moved : Frames.Moved i.opcode m.frames frames) : Reframes i m frames
  | declared (x : Variable) {frames : Frames} (op : i.opcode = .defVar)
      (first : i.operands.head? = some (.var x)) (declared : m.frames.declare x = .ok frames) :
      Reframes i m frames
  | assigned (x : Variable) {value : Value} {frames : Frames} (assigns : i.opcode.assigns = true)
      (first : i.operands.head? = some (.var x)) (computed : i.Computes m value)
      (assigned : m.frames.assign x value = .ok frames) : Reframes i m frames

namespace Instruction.Reframes

variable {i : Instruction} {m : Machine} {frames : Frames} (change : i.Reframes m frames)

include change

/-- Operations that move frames do so as a whole. -/
theorem moved_of (moves : i.opcode.movesFrames = true) :
    Frames.Moved i.opcode m.frames frames := by
  -- Of the ways to change frames, an operation that moves them has only one.
  cases change with
  | kept keeps => simp [(Opcode.keepsFrames_iff.mp keeps).1] at moves
  | moved _ moved => exact moved
  | declared _ op => simp [op, Opcode.movesFrames] at moves
  | assigned _ assigns => simp [(Opcode.keeps_of_assigns assigns).1] at moves

/-- Where no frames are moved, every place has a frame if it had one before. -/
theorem at?_isSome (still : i.opcode.movesFrames = false) (place : Place) :
    (frames.at? place).isSome = (m.frames.at? place).isSome := by
  -- Declaring and assigning put slots into frames that are there already.
  cases change with
  | kept => rfl
  | moved moves => simp [still] at moves
  | declared _ _ _ declared => exact (Frames.declare_spec declared).2.2.frames place
  | assigned _ _ _ _ assigned => exact (Frames.assign_spec assigned).2.2.frames place

/-- A declaration makes exactly one name, which has no value. -/
theorem declared_of (op : i.opcode = .defVar) :
    ∃ x, i.operands.head? = some (.var x) ∧ m.frames.held? x.frame.place x.name = none ∧
      frames.held? x.frame.place x.name = some none ∧ Frames.SameBut x m.frames frames := by
  -- Of the ways to change frames, a declaration has only one.
  cases change with
  | kept keeps => exact absurd op (Opcode.keepsFrames_iff.mp keeps).2.1
  | moved moves => simp [op, Opcode.movesFrames] at moves
  | declared x _ first declared => exact ⟨x, first, Frames.declare_spec declared⟩
  | assigned _ assigns => exact absurd op (Opcode.keeps_of_assigns assigns).2

/-- Where no frames are moved and nothing is declared, the names are the same as before. -/
theorem held?_isSome (still : i.opcode.movesFrames = false) (other : i.opcode ≠ .defVar)
    (place : Place) (name : String) :
    (frames.held? place name).isSome = (m.frames.held? place name).isSome := by
  cases change with
  | kept => rfl
  | moved moves => simp [still] at moves
  | declared _ op => exact absurd op other
  | assigned x _ _ _ assigned =>
    -- The variable that is assigned was declared before, and it still is.
    obtain ⟨before, after, same⟩ := Frames.assign_spec assigned
    by_cases here : place = x.frame.place ∧ name = x.name
    · obtain ⟨rfl, rfl⟩ := here
      rw [before, after]
      rfl
    · rw [same.slots place name here]

/-- A slot that does not hold what it held before is that of the destination. -/
theorem destination_of_ne (still : i.opcode.movesFrames = false) (other : i.opcode ≠ .defVar)
    {place : Place} {name : String}
    (differs : frames.held? place name ≠ m.frames.held? place name) :
    i.opcode.assigns = true ∧
      ∃ x, i.operands.head? = some (.var x) ∧ place = x.frame.place ∧ name = x.name := by
  -- Only an assignment is left, and it changes no slot but the one it names.
  cases change with
  | kept => exact absurd rfl differs
  | moved moves => simp [still] at moves
  | declared _ op => exact absurd op other
  | assigned x assigns first _ assigned =>
    refine ⟨assigns, x, first, Decidable.byContradiction fun elsewhere => differs ?_⟩
    exact (Frames.assign_spec assigned).2.2.slots place name elsewhere

/-- The destination of an assignment holds a value that was computed for it. -/
theorem assigned_of (assigns : i.opcode.assigns = true) :
    ∃ x value, i.operands.head? = some (.var x) ∧ i.Computes m value ∧
      frames.held? x.frame.place x.name = some (some value) := by
  -- Of the ways to change frames, an assignment has only one.
  have keeps := Opcode.keeps_of_assigns assigns
  cases change with
  | kept plain => simp [(Opcode.keepsFrames_iff.mp plain).2.2] at assigns
  | moved moves => simp [keeps.1] at moves
  | declared _ op => exact absurd op keeps.2
  | assigned x _ first computed assigned =>
    exact ⟨x, _, first, computed, (Frames.assign_spec assigned).2.1⟩

end Instruction.Reframes

namespace CarriedOut

variable {devices : Devices} {i : Instruction} {m n : Machine} {order : UInt64} {effect : Effect}
  {labels : Labels}

/-- Where an effect is carried out, the frames change in one of the possible ways. -/
theorem reframes (reduced : i.effect labels m.frames = .ok effect)
    (carried : CarriedOut devices { m with pc := m.pc + 1 } order effect n) :
    i.Reframes m n.frames := by
  have kind := i.effect_mayHave labels m.frames _ reduced
  cases carried with
  -- What is about control, values put aside or texts leaves the frames alone.
  | skip =>
    rcases Opcode.mayHave_skip.mp kind with op | op | op <;> exact .kept (by rw [op]; rfl)
  | push => exact .kept (by rw [Opcode.mayHave_push.mp kind]; rfl)
  | call => exact .kept (by rw [Opcode.mayHave_call.mp kind]; rfl)
  | ret => exact .kept (by rw [Opcode.mayHave_ret.mp kind]; rfl)
  | jump =>
    rcases Opcode.mayHave_jump.mp kind with op | op | op <;> exact .kept (by rw [op]; rfl)
  | write =>
    rcases Opcode.mayHave_write.mp kind with ⟨op, _⟩ | ⟨op, _⟩ <;> exact .kept (by rw [op]; rfl)
  | dump => exact .kept (by rw [Opcode.mayHave_dump.mp kind]; rfl)
  | exit => exact .kept (by rw [Opcode.mayHave_exit.mp kind]; rfl)
  -- Frames are moved as a whole.
  | createFrame =>
    have op := Opcode.mayHave_createFrame.mp kind
    refine .moved (by rw [op]; rfl) ?_
    rw [op]
    exact .created _ _ _
  | pushFrame moved =>
    have op := Opcode.mayHave_pushFrame.mp kind
    refine .moved (by rw [op]; rfl) ?_
    rw [op]
    exact Frames.push_moved moved
  | popFrame moved =>
    have op := Opcode.mayHave_popFrame.mp kind
    refine .moved (by rw [op]; rfl) ?_
    rw [op]
    exact Frames.pop_moved moved
  -- One slot is made or changed, which the first operand tells.
  | declare declared =>
    have first := Instruction.destination_eq_ok_iff.mp (Instruction.effect_declare reduced)
    exact .declared _ (Opcode.mayHave_declare.mp kind) first declared
  | assign assigned =>
    obtain ⟨found, computed⟩ := Instruction.effect_assign reduced
    exact .assigned _ (Opcode.assigns_of_mayHave kind)
      (Instruction.destination_eq_ok_iff.mp found) computed assigned
  | receive assigned =>
    have op := Opcode.mayHave_receive.mp kind
    obtain ⟨found, asked⟩ := Instruction.effect_receive reduced
    exact .assigned _ (by rw [op]; rfl) (Instruction.destination_eq_ok_iff.mp found)
      (.received op asked) assigned
  | pop top assigned =>
    have op := Opcode.mayHave_pop.mp kind
    have found := Instruction.effect_pop reduced
    exact .assigned _ (by rw [op]; rfl) (Instruction.destination_eq_ok_iff.mp found)
      (.popped op top) assigned

variable {opcode : Opcode} (kind : opcode.mayHave effect = true)
  (carried : CarriedOut devices m order effect n)

include kind carried

/-- Only two operations use the data stack. -/
theorem dataStack_eq (pushes : opcode ≠ .pushs) (pops : opcode ≠ .pops) :
    n.dataStack = m.dataStack := by
  -- The effects that touch this stack belong to one operation each.
  cases carried with
  | push => exact absurd (Opcode.mayHave_push.mp kind) pushes
  | pop => exact absurd (Opcode.mayHave_pop.mp kind) pops
  | _ => rfl

/-- Only calls and returns change the call stack. -/
theorem callStack_eq (calls : opcode ≠ .call) (returns : opcode ≠ .ret) :
    n.callStack = m.callStack := by
  -- The effects that touch this stack belong to one operation each.
  cases carried with
  | call => exact absurd (Opcode.mayHave_call.mp kind) calls
  | ret => exact absurd (Opcode.mayHave_ret.mp kind) returns
  | _ => rfl

/-- Only reading takes lines from the input. -/
theorem input_eq (reads : opcode ≠ .read) : n.input = m.input := by
  -- The only effect that touches the input belongs to one operation.
  cases carried with
  | receive => exact absurd (Opcode.mayHave_receive.mp kind) reads
  | _ => rfl

/-- Only jumps, calls and returns continue elsewhere. -/
theorem pc_eq (jumps : opcode ∉ [.jump, .jumpIfEq, .jumpIfNeq, .call, .ret]) : n.pc = m.pc := by
  -- Where a jump may go on behind itself, it has no effect and changes no position.
  cases carried with
  | call => simp [Opcode.mayHave_call.mp kind] at jumps
  | ret => simp [Opcode.mayHave_ret.mp kind] at jumps
  | jump => rcases Opcode.mayHave_jump.mp kind with op | op | op <;> simp [op] at jumps
  | _ => rfl

/-- Only one operation writes results. -/
theorem side_out_eq (writes : opcode ≠ .write) : n.console.side .out = m.console.side .out := by
  -- Messages and dumps go to the other stream.
  cases carried with
  | write taken =>
    rcases Opcode.mayHave_write.mp kind with ⟨op, _⟩ | ⟨_, rfl⟩
    · exact absurd op writes
    · exact Console.side_write taken nofun
  | dump taken => exact Console.side_write taken nofun
  | _ => rfl

/-- Only two operations write messages. -/
theorem side_err_eq (prints : opcode ≠ .dprint) (dumps : opcode ≠ .dump) :
    n.console.side .err = m.console.side .err := by
  -- Results go to the other stream.
  cases carried with
  | write taken =>
    rcases Opcode.mayHave_write.mp kind with ⟨_, rfl⟩ | ⟨op, _⟩
    · exact Console.side_write taken nofun
    · exact absurd op prints
  | dump => exact absurd (Opcode.mayHave_dump.mp kind) dumps
  | _ => rfl

end CarriedOut

namespace Machine

/-- A successful step changes the frames in a way of its instruction. -/
theorem reframes_of_succeeds {devices : Devices} {image : Image} {m n : Machine} {i : Instruction}
    (fetched : image.code[m.pc]? = some i) (done : (m.advance devices image).Succeeds n) :
    i.Reframes m n.frames := by
  -- What counts the instruction as completed has nothing to do with frames.
  obtain ⟨effect, after, reduced, carried, rfl⟩ := advance_succeeds fetched done
  exact CarriedOut.reframes (n := after) reduced carried

/--
A successful step of an instruction changes only the part of the state that is its own.

The image may be that of any program, and the machine may have come from anywhere. A step that ends
the run with a status is successful as well.
-/
theorem advance_keepsTo {devices : Devices} {image : Image} {m n : Machine} {i : Instruction}
    (fetched : image.code[m.pc]? = some i) (done : (m.advance devices image).Succeeds n) :
    i.KeepsTo m n := by
  obtain ⟨effect, after, reduced, carried, rfl⟩ := advance_succeeds fetched done
  have kind := i.effect_mayHave image.labels m.frames effect reduced
  have change := carried.reframes reduced
  -- What counts the instruction as completed is no part of any operation.
  exact {
    dataStack := (carried.dataStack_eq kind :)
    callStack := (carried.callStack_eq kind :)
    moved := change.moved_of
    places := change.at?_isSome
    declared := change.declared_of
    names := change.held?_isSome
    values := fun still other _ _ => change.destination_of_ne still other
    assigned := change.assigned_of
    input := (carried.input_eq kind :)
    out := (carried.side_out_eq kind :)
    err := (carried.side_err_eq kind :)
    pc := (carried.pc_eq kind :) }

/-- An addition of a global variable to itself, which is the destination as well. -/
def doubling : Instruction :=
  let x : Operand := .var ⟨.globalFrame, "x"⟩
  ⟨.add, 1, [x, x, x]⟩

/-- A machine whose only variable is global and has the given value. -/
def withGlobal (value : Value) : Machine :=
  { Machine.fresh [] with frames := { Frames.initial with globals := ⟨[("x", some value)]⟩ } }

/-- A variable that is both sources and the destination takes the sum of what it held before. -/
theorem advance_keepsTo_of_doubling :
    ∃ n, (withGlobal (.int 21)).advance .willing ⟨#[doubling], []⟩ = .next n ∧
      doubling.KeepsTo (withGlobal (.int 21)) n ∧
        n.frames.held? .globals "x" = some (some (.int 42)) := by
  -- The step is computed, and the value it leaves is read off its machine.
  let image : Image := ⟨#[doubling], []⟩
  let n := { withGlobal (.int 42) with pc := 1, executed := 1, last := some .add }
  have next : (withGlobal (.int 21)).advance .willing image = .next n := by decide
  have fetched : image.code[(withGlobal (.int 21)).pc]? = some doubling := rfl
  have done : ((withGlobal (.int 21)).advance .willing image).Succeeds n := by
    rw [next]
    exact .next n
  exact ⟨n, next, advance_keepsTo fetched done, rfl⟩

end Machine

end ThreeAddress
