import ThreeAddress.Proofs.Machine.FailingStep
import ThreeAddress.Proofs.Machine.FrameFaults
import ThreeAddress.Proofs.Machine.Histories
import ThreeAddress.Proofs.Machine.Linking
import ThreeAddress.Proofs.Machine.Locality

/-!
Variables only gain state. Once declared, a variable stays declared for as long as its frame exists,
and once assigned, it always has a value, wherever the frame moves in the meantime.
-/

namespace ThreeAddress

namespace Place

/-- Where a frame is after an operation has succeeded, unless it is lost by that. -/
def after (place : Place) : Opcode → Option Place
  | .createFrame =>
    match place with
    -- A new temporary frame takes the place of the old one.
    | temporary => none
    | other => some other
  | .pushFrame =>
    match place with
    | globals => some globals
    | temporary => some (suspended 0)
    | suspended depth => some (suspended (depth + 1))
  | .popFrame =>
    match place with
    | globals => some globals
    -- The topmost local frame takes the place of the temporary one.
    | temporary => none
    | suspended 0 => some temporary
    | suspended (depth + 1) => some (suspended depth)
  | _ => some place

/-- Where a frame is after some completions, latest first, unless it was lost by one of them. -/
def through (place : Place) : List Completion → Option Place
  | [] => some place
  | c :: earlier => (place.through earlier).bind fun now => now.after c.instruction.opcode

/-- Operations that do not move frames leave every frame where it is. -/
theorem after_of_still {place : Place} {opcode : Opcode} (still : opcode.movesFrames = false) :
    place.after opcode = some place := by
  -- Only two operations move frames.
  cases opcode <;> first | rfl | cases still

/-- The global frame stays in its place, whatever is completed. -/
theorem globals_through (past : List Completion) : globals.through past = some globals := by
  -- No operation moves the global frame.
  induction past with
  | nil => rfl
  | cons c earlier ih =>
    rw [through, ih, Option.bind_some]
    cases c.instruction.opcode <;> rfl

end Place

/-- A frame that is moved is found in its new place as it was. -/
theorem Frames.Moved.at?_after {opcode : Opcode} {s t : Frames} (moved : Frames.Moved opcode s t)
    {place now : Place} (here : place.after opcode = some now) : t.at? now = s.at? place := by
  cases moved with
  | created =>
    cases place with
    | temporary => cases here
    | globals | suspended depth =>
      cases here
      rfl
  | pushed =>
    -- All local frames are one deeper than before.
    cases place with
    | globals | temporary | suspended depth =>
      cases here
      rfl
  | popped =>
    cases place with
    | temporary => cases here
    | globals =>
      cases here
      rfl
    | suspended depth =>
      cases depth with
      | zero | succ depth =>
        cases here
        rfl

/-- A declared name is found where its frame has gone, and holds what it held or a new value. -/
theorem Instruction.Reframes.held?_after {i : Instruction} {m : Machine} {frames : Frames}
    (change : i.Reframes m frames) {place now : Place} {name : String} {held : Option Value}
    (here : place.after i.opcode = some now) (known : m.frames.held? place name = some held) :
    frames.held? now name = some held ∨ ∃ value, frames.held? now name = some (some value) := by
  -- A name can be lost only with its frame, and a value only to a new value.
  cases change with
  | kept keeps =>
    rw [Place.after_of_still (Opcode.keepsFrames_iff.mp keeps).1] at here
    cases here
    exact .inl known
  | moved _ moved =>
    left
    rw [Frames.held?, moved.at?_after here]
    exact known
  | declared x op _ declared =>
    rw [op] at here
    cases here
    obtain ⟨new, _, same⟩ := Frames.declare_spec declared
    left
    rw [same.slots place name ?_]
    · exact known
    · -- A name that is declared already is not the one that is new.
      intro target
      rw [target.1, target.2, new] at known
      cases known
  | @assigned x value frames assigns _ _ assigned =>
    rw [Place.after_of_still (Opcode.keeps_of_assigns assigns).1] at here
    cases here
    obtain ⟨_, given, same⟩ := Frames.assign_spec assigned
    by_cases target : place = x.frame.place ∧ name = x.name
    · right
      rw [target.1, target.2]
      exact ⟨value, given⟩
    · left
      rw [same.slots place name target]
      exact known

/-- No type has an empty name. -/
theorem DataType.name_ne_empty (t : DataType) : t.name ≠ "" := by
  -- Each type has a name that can be looked at.
  cases t <;> decide

namespace Machine

/-- What a declared variable can rely on in the next step of a machine. -/
structure StaysDeclared (devices : Devices) (image : Image) (m : Machine) (x : Variable) :
    Prop where
  exists_frame : ∀ order after,
    m.advance devices image ≠ .fault (.raised order (.frame (.missing x.frame))) after
  defined : ∀ order after,
    m.advance devices image ≠ .fault (.raised order (.frame (.undeclared x))) after
  /-- Another declaration is refused. -/
  once : ∀ i, image.code[m.pc]? = some i → i.opcode = .defVar → i.operands.head? = some (.var x) →
    m.advance devices image =
      .fault (.raised i.order (.frame (.redeclared x))) { m with pc := m.pc + 1 }

/-- What an assigned variable can rely on in the next step of a machine. -/
structure StaysAssigned (devices : Devices) (image : Image) (m : Machine) (x : Variable) :
    Prop where
  initialized : ∀ order after,
    m.advance devices image ≠ .fault (.raised order (.frame (.unassigned x))) after
  /-- Asking for its type never yields the empty name. -/
  typed : ∀ i n, image.code[m.pc]? = some i → i.opcode = .type → i.operands[1]? = some (.var x) →
    m.advance devices image = .next n →
      ∃ y name, i.operands.head? = some (.var y) ∧
        n.frames.held? y.frame.place y.name = some (some (.string name)) ∧ name ≠ ""

variable {devices : Devices} {image : Image} {m n : Machine} {x : Variable}

/-- A variable whose name is in its frame can rely on being declared. -/
theorem staysDeclared {held : Option Value}
    (known : m.frames.held? x.frame.place x.name = some held) :
    StaysDeclared devices image m x where
  exists_frame order after failed := by
    -- Without a frame there would be no name in it.
    have missing : m.frames.at? x.frame.place = none := advance_frameError failed
    rw [Frames.held?, missing] at known
    cases known
  defined order after failed := by
    have undeclared := (advance_frameError failed).2
    rw [known] at undeclared
    cases undeclared
  once i fetched op first := by
    have refused : m.frames.declare x = .error (.redeclared x) :=
      Frames.declare_eq_error_iff.mpr (.inr ⟨rfl, held, Frames.slot_eq_ok_iff.mpr known⟩)
    have reduced : i.effect image.labels m.frames = .ok (.declare x) := by
      rw [Instruction.effect, op]
      exact bind_eq_ok_iff.mpr ⟨x, Instruction.destination_eq_ok_iff.mpr first, rfl⟩
    rw [advance_of_effect fetched reduced, Machine.perform, refused, Machine.setFrames,
      Outcome.complete]

/-- A variable that has a value can rely on having one. -/
theorem staysAssigned {value : Value}
    (known : m.frames.held? x.frame.place x.name = some (some value)) :
    StaysAssigned devices image m x where
  initialized order after failed := by
    have empty : m.frames.held? x.frame.place x.name = some none := advance_frameError failed
    rw [known] at empty
    cases empty
  typed i n fetched op second next := by
    have change := reframes_of_succeeds fetched (by rw [next]; exact .next n)
    have assigns : i.opcode.assigns = true := by rw [op]; rfl
    obtain ⟨y, named, first, computed, held⟩ := change.assigned_of assigns
    cases computed with
    | @named t _ source =>
      -- The source is the variable, whose type is that of its value.
      rw [Instruction.typeOf, second] at source
      have found := mapError_eq_ok_iff.mp source
      obtain ⟨content, slot, rfl⟩ := Frames.typeOf_eq_ok_iff.mp found
      rw [Frames.slot_eq_ok_iff, known] at slot
      cases slot
      exact ⟨y, _, first, held, value.dataType.name_ne_empty⟩
    | moved other | transformed other | combined other | replaced other | received other
    | popped other => simp [op] at other

end Machine

namespace Program

variable {p : Program} {input : List UInt8} {image : Image} {devices : Devices}
  {past : List Completion} {m : Machine}

/-- The name that an instruction has declared or assigned is there, with a value if it assigned. -/
theorem held?_of_succeeds {i : Instruction} {n : Machine} {x : Variable}
    (fetched : image.code[m.pc]? = some i) (done : (m.advance devices image).Succeeds n)
    (first : i.operands.head? = some (.var x))
    (touches : i.opcode = .defVar ∨ i.opcode.assigns = true) :
    ∃ held, n.frames.held? x.frame.place x.name = some held ∧
      (i.opcode.assigns = true → held ≠ none) := by
  -- A declaration makes an empty slot, and an assignment fills the one it names.
  have change := Machine.reframes_of_succeeds fetched done
  rcases touches with op | assigns
  · obtain ⟨y, same, _, held, _⟩ := change.declared_of op
    rw [first] at same
    cases same
    refine ⟨none, held, fun assigns => ?_⟩
    rw [op] at assigns
    cases assigns
  · obtain ⟨y, value, same, _, held⟩ := change.assigned_of assigns
    rw [first] at same
    cases same
    exact ⟨some value, held, fun _ => nofun⟩

/-- What an instruction has declared or assigned is there for as long as its frame is. -/
theorem Life.held?_through {phase : Phase} (alive : p.Life input image phase past m) :
    ∀ later c earlier, past = later ++ c :: earlier →
      ∀ x, c.instruction.operands.head? = some (.var x) →
        c.instruction.opcode = .defVar ∨ c.instruction.opcode.assigns = true →
          ∀ place, x.frame.place.through later = some place →
            ∃ held, m.frames.held? place x.name = some held ∧
              (c.instruction.opcode.assigns = true → held ≠ none) := by
  apply alive.keeps
  · -- A new machine has completed nothing.
    intro later c earlier split
    cases later <;> cases split
  · intro past m known
    exact known
  · intro devices past m n i known fetched done later c earlier split x first touches place moved
    cases later with
    | nil =>
      cases split
      cases moved
      exact held?_of_succeeds fetched done first touches
    | cons latest later =>
      obtain ⟨rfl, behind⟩ := List.cons.inj split
      obtain ⟨before, moved, here⟩ := Option.bind_eq_some_iff.mp moved
      obtain ⟨held, found, valued⟩ := known later c earlier behind x first touches before moved
      -- The latest instruction may have given a value, but has taken none.
      have change := Machine.reframes_of_succeeds fetched done
      rcases change.held?_after here found with same | ⟨value, given⟩
      · exact ⟨held, same, valued⟩
      · exact ⟨some value, given, fun _ => nofun⟩
  · intro devices past m n fault known failed
    rw [Machine.advance_fault_unchanged failed]
    exact known

/--
Variables only gain state, in all executions that a machine goes through.

The global frame is never missing and never moves. After an instruction has declared a variable, as
long as its frame has not been lost, no instruction finds the variable undeclared, wherever the
frame is addressed, and every other declaration of it fails. After an instruction has assigned a
value to it, no instruction finds the variable without a value, and its type is never empty.
-/
theorem variables_only_gain_state (alive : p.Life input image (.running devices) past m) :
    (∀ order after,
      m.advance devices image ≠ .fault (.raised order (.frame (.missing .globalFrame))) after) ∧
    (∀ later, Place.globals.through later = some .globals) ∧
    ∀ later c earlier, past = later ++ c :: earlier →
      ∀ x, c.instruction.operands.head? = some (.var x) →
        ∀ y, x.frame.place.through later = some y.frame.place → y.name = x.name →
          (c.instruction.opcode = .defVar → m.StaysDeclared devices image y) ∧
          (c.instruction.opcode.assigns = true →
            m.StaysDeclared devices image y ∧ m.StaysAssigned devices image y) := by
  -- What held after the completion is followed to where the frame is now.
  refine ⟨?_, Place.globals_through, ?_⟩
  · intro order after failed
    cases Machine.advance_frameError failed
  · intro later c earlier split x first y moved name
    have known := fun touches => alive.held?_through later c earlier split x first touches _ moved
    rw [← name] at known
    constructor
    · intro op
      obtain ⟨held, found, _⟩ := known (.inl op)
      exact Machine.staysDeclared found
    · intro assigns
      obtain ⟨held, found, valued⟩ := known (.inr assigns)
      obtain ⟨value, rfl⟩ := Option.ne_none_iff_exists'.mp (valued assigns)
      exact ⟨Machine.staysDeclared found, Machine.staysAssigned found⟩

/-- A program that assigns to a temporary variable and suspends its frame, and declares it anew. -/
def suspendedDeclaration : Program :=
  { instructions := [⟨.createFrame, 1, []⟩, ⟨.defVar, 2, [.var ⟨.temporaryFrame, "x"⟩]⟩,
      ⟨.move, 3, [.var ⟨.temporaryFrame, "x"⟩, .literal .nil]⟩, ⟨.pushFrame, 4, []⟩,
      ⟨.defVar, 5, [.var ⟨.localFrame, "x"⟩]⟩] }

/-- The program that declares a variable of a suspended frame anew, ready to run. -/
def suspendedDeclarationImage : Image :=
  { code := suspendedDeclaration.instructions.toArray, labels := [] }

/-- The second declaration fails, for the frame is addressed by another tag and is the same. -/
theorem variables_only_gain_state_of_suspendedDeclaration :
    ∃ past m, suspendedDeclaration.Life [] suspendedDeclarationImage (.running .willing) past m ∧
      m.advance .willing suspendedDeclarationImage =
        .fault (.raised 5 (.frame (.redeclared ⟨.localFrame, "x"⟩))) { m with pc := 5 } ∧
      m.StaysAssigned .willing suspendedDeclarationImage ⟨.localFrame, "x"⟩ := by
  let image := suspendedDeclarationImage
  have sorted : suspendedDeclaration.sorted = suspendedDeclaration.instructions :=
    List.mergeSort_of_pairwise (by decide)
  have linked : suspendedDeclaration.link = .ok image := by
    rw [link_eq_ok_iff, sorted]
    exact ⟨rfl, rfl⟩
  -- Four steps lead to the second declaration.
  let first : Machine :=
    { Machine.fresh [] with
      frames := ⟨.empty, some .empty, []⟩, pc := 1, executed := 1, last := some .createFrame }
  let second : Machine :=
    { first with
      frames := ⟨.empty, some ⟨[("x", none)]⟩, []⟩, pc := 2, executed := 2, last := some .defVar }
  let third : Machine :=
    { second with
      frames := ⟨.empty, some ⟨[("x", some .nil)]⟩, []⟩, pc := 3, executed := 3,
      last := some .move }
  let fourth : Machine :=
    { third with
      frames := ⟨.empty, none, [⟨[("x", some .nil)]⟩]⟩, pc := 4, executed := 4,
      last := some .pushFrame }
  have begun : suspendedDeclaration.start (.fresh []) = .ok (image, .fresh []) :=
    start_eq_ok_iff.mpr ⟨linked, rfl⟩
  have created := (Life.started .willing .fresh begun).stepped (n := first) rfl rfl
  have declared := created.stepped (n := second) rfl rfl
  have assigned := declared.stepped (n := third) rfl rfl
  have alive := assigned.stepped (n := fourth) rfl rfl
  obtain ⟨_, _, lasting⟩ := variables_only_gain_state alive
  let x : Variable := ⟨.localFrame, "x"⟩
  have kept := lasting [⟨⟨.pushFrame, 4, []⟩, third⟩] _ _ rfl _ rfl x rfl rfl
  obtain ⟨declared, valued⟩ := kept.2 rfl
  exact ⟨_, fourth, alive, declared.once _ rfl rfl rfl, valued⟩

end Program

end ThreeAddress
