import ThreeAddress.Machine.Step
import ThreeAddress.Proofs.Machine.Places

/-!
Frames as a partial map from variables to values. What an operation answers is told by the slot of
its variable alone, and an operation that succeeds changes no other slot.
-/

namespace ThreeAddress

/-- The frames that two tags address are in two places. -/
theorem FrameTag.place_injective : Function.Injective FrameTag.place := by
  -- There are three tags with a place each.
  intro a b same
  cases a <;> cases b <;> first | rfl | cases same

/-- A variable is told by the place of its frame and by its name. -/
theorem Variable.eq_of_place {x y : Variable} (place : y.frame.place = x.frame.place)
    (name : y.name = x.name) : y = x := by
  -- The tag is told by the place, and there is nothing else to a variable but its name.
  obtain ⟨frame, called⟩ := x
  obtain ⟨otherFrame, otherCalled⟩ := y
  cases name
  cases FrameTag.place_injective place
  rfl

namespace Frames

variable {s t : Frames} {x y : Variable} {value : Value} {e : FrameError}

/-- Why a variable has no slot: there is no frame for it, or else the frame lacks its name. -/
inductive Lacks (s : Frames) (x : Variable) : FrameError → Prop where
  | frame (empty : s.at? x.frame.place = none) : Lacks s x (.missing x.frame)
  | name {f : Frame} (present : s.at? x.frame.place = some f) (absent : f.slot? x.name = none) :
      Lacks s x (.undeclared x)

/-- A tag addresses no frame exactly where its place is empty. -/
theorem frame_eq_error_iff {tag : FrameTag} :
    s.frame tag = .error e ↔ s.at? tag.place = none ∧ e = .missing tag := by
  -- The topmost suspended frame is the one at depth zero.
  obtain ⟨globals, temporary, locals⟩ := s
  cases tag with
  | globalFrame => simp [Frames.frame, FrameTag.place, Frames.at?]
  | localFrame => cases locals <;> simp [Frames.frame, FrameTag.place, Frames.at?, eq_comm]
  | temporaryFrame => cases temporary <;> simp [Frames.frame, FrameTag.place, Frames.at?, eq_comm]

/-- A slot is found exactly where the frame is there and the name is declared in it. -/
theorem slot_eq_ok_iff {held : Option Value} :
    s.slot x = .ok held ↔ s.held? x.frame.place x.name = some held := by
  -- Both look for the frame first, and for the name in it.
  rw [slot, held?, bind_eq_ok_iff, Option.bind_eq_some_iff]
  refine exists_congr fun f => ?_
  rw [frame_eq_ok_iff]
  apply and_congr_right
  intro _
  cases f.slot? x.name <;> simp

/-- A slot is not found for one of two reasons, of which the frame comes first. -/
theorem slot_eq_error_iff : s.slot x = .error e ↔ s.Lacks x e := by
  -- The frame is looked for first, and the name is looked for in it.
  rw [slot, bind_eq_error_iff]
  constructor
  · rintro (failed | ⟨f, found, failed⟩)
    · obtain ⟨empty, rfl⟩ := frame_eq_error_iff.mp failed
      exact .frame empty
    · -- With the frame at hand, only the name can be what is lacking.
      split at failed
      · rename_i absent
        cases failed
        exact .name (frame_eq_ok_iff.mp found) absent
      · cases failed
  · intro lacking
    cases lacking with
    | frame empty => exact .inl (frame_eq_error_iff.mpr ⟨empty, rfl⟩)
    | @name f present absent =>
      refine .inr ⟨f, frame_eq_ok_iff.mpr present, ?_⟩
      rw [absent]

/-- The type of a variable is asked in vain exactly where there is no slot. -/
theorem typeOf_eq_error_iff : s.typeOf x = .error e ↔ s.slot x = .error e := by
  rw [typeOf, bind_eq_error_iff]
  -- Once the slot is found, its type is always told.
  exact or_iff_left fun ⟨_, _, failed⟩ => nomatch failed

/-- The type of a variable is that of what its slot holds. -/
theorem typeOf_eq_ok_iff {type : Option DataType} : s.typeOf x = .ok type ↔
    ∃ held, s.slot x = .ok held ∧ held.map Value.dataType = type := by
  -- The type is asked of a slot that was found, which may be empty.
  rw [typeOf, bind_eq_ok_iff]
  refine exists_congr fun held => and_congr_right fun _ => ?_
  exact ⟨Except.ok.inj, congrArg Except.ok⟩

/-- A variable is read in vain if there is no slot, or if its slot holds nothing yet. -/
theorem read_eq_error_iff :
    s.read x = .error e ↔ s.slot x = .error e ∨ s.slot x = .ok none ∧ e = .unassigned x := by
  -- Behind a slot that was found, only an empty one is a failure.
  rw [read, bind_eq_error_iff]
  apply or_congr_right
  constructor
  · rintro ⟨held, found, failed⟩
    cases held with
    | none =>
      cases failed
      exact ⟨found, rfl⟩
    | some value => cases failed
  · rintro ⟨found, rfl⟩
    exact ⟨none, found, rfl⟩

/-- What is read is what the slot holds. -/
theorem read_eq_ok_iff : s.read x = .ok value ↔ s.slot x = .ok (some value) := by
  -- Behind a slot that was found, only a value is a success.
  rw [read, bind_eq_ok_iff]
  constructor
  · rintro ⟨held, found, done⟩
    cases held with
    | none => cases done
    | some held =>
      cases done
      exact found
  · intro found
    exact ⟨some value, found, rfl⟩

/-- A variable cannot be assigned exactly where there is no slot. -/
theorem assign_eq_error_iff : s.assign x value = .error e ↔ s.slot x = .error e := by
  -- Both look for the frame and then for the name, and differ in what they do with the slot.
  rw [assign, slot, bind_eq_error_iff, bind_eq_error_iff]
  apply or_congr_right
  refine exists_congr fun f => and_congr_right fun _ => ?_
  cases f.slot? x.name <;> simp

/-- A variable cannot be declared if its frame is missing, or if there is a slot for it already. -/
theorem declare_eq_error_iff : s.declare x = .error e ↔
    e = .missing x.frame ∧ s.slot x = .error e ∨
      e = .redeclared x ∧ ∃ held, s.slot x = .ok held := by
  -- The frame is looked for first, and a name that is found in it is one too many.
  rw [declare, bind_eq_error_iff]
  constructor
  · rintro (failed | ⟨f, found, failed⟩)
    · obtain ⟨empty, rfl⟩ := frame_eq_error_iff.mp failed
      exact .inl ⟨rfl, slot_eq_error_iff.mpr (.frame empty)⟩
    · split at failed
      · rename_i held known
        cases failed
        refine .inr ⟨rfl, held, bind_eq_ok_iff.mpr ⟨f, found, ?_⟩⟩
        rw [known]
      · cases failed
  · rintro (⟨rfl, failed⟩ | ⟨rfl, held, found⟩)
    · -- A slot that is lacking because of its name would have another error.
      cases slot_eq_error_iff.mp failed with
      | frame empty => exact .inl (frame_eq_error_iff.mpr ⟨empty, rfl⟩)
    · obtain ⟨f, present, found⟩ := bind_eq_ok_iff.mp found
      refine .inr ⟨f, present, ?_⟩
      split at found
      · cases found
      · rename_i known
        rw [known]

/-- What the operations on frames answer about a variable, in one store of frames and another. -/
structure AnswerAlike (y : Variable) (s t : Frames) : Prop where
  read : t.read y = s.read y
  typeOf : t.typeOf y = s.typeOf y
  declare : ∀ e, t.declare y = .error e ↔ s.declare y = .error e
  assign : ∀ value e, t.assign y value = .error e ↔ s.assign y value = .error e

/-- A variable with the same slot is answered alike. -/
theorem AnswerAlike.of_slot (same : t.slot y = s.slot y) : AnswerAlike y s t where
  read := by rw [Frames.read, same, Frames.read]
  typeOf := by rw [Frames.typeOf, same, Frames.typeOf]
  declare e := by rw [declare_eq_error_iff, same, declare_eq_error_iff]
  assign value e := by rw [assign_eq_error_iff, same, assign_eq_error_iff]

/-- Frames that differ in one slot have the same slots for all other variables. -/
theorem SameBut.slot_eq (same : SameBut x s t) (other : y ≠ x) : t.slot y = s.slot y := by
  have elsewhere : ¬ (y.frame.place = x.frame.place ∧ y.name = x.name) :=
    fun h => other (Variable.eq_of_place h.1 h.2)
  have held := same.slots y.frame.place y.name elsewhere
  cases found : s.slot y with
  | ok content =>
    rw [slot_eq_ok_iff] at found ⊢
    rw [held, found]
  | error e =>
    -- The reason is the same, for the frame is there in both, or in none.
    have there := same.frames y.frame.place
    rw [slot_eq_error_iff] at found ⊢
    cases found with
    | frame empty =>
      rw [empty] at there
      exact .frame (Option.not_isSome_iff_eq_none.mp (by simp [there]))
    | name present absent =>
      rw [present] at there
      obtain ⟨g, now⟩ := Option.isSome_iff_exists.mp there
      have unknown : s.held? y.frame.place y.name = none := by rw [held?, present]; exact absent
      rw [unknown, held?, now] at held
      exact .name now held

/--
Frames are a partial map from variables to values, and errors come in one order.

Asking for a type and assigning fail alike: a missing frame comes before an undeclared name. Reading
fails in the same way, and otherwise only where there is no value yet. Declaring fails in the same
way where the frame is missing, and otherwise exactly where the others find a slot. What was
declared has no value, what was assigned is read back, and no other variable is answered otherwise
than before. A machine that cannot declare or assign keeps its frames, and all else with them.
-/
theorem frames_are_a_partial_map (s : Frames) (x : Variable) (value : Value) :
    (∀ e, s.typeOf x = .error e ↔ s.Lacks x e) ∧
    (∀ e, s.assign x value = .error e ↔ s.typeOf x = .error e) ∧
    (∀ e, s.read x = .error e ↔
      s.typeOf x = .error e ∨ s.typeOf x = .ok none ∧ e = .unassigned x) ∧
    (∀ held, s.read x = .ok held → s.typeOf x = .ok (some held.dataType)) ∧
    (∀ e, s.declare x = .error e ↔
      e = .missing x.frame ∧ s.typeOf x = .error e ∨
        e = .redeclared x ∧ ∃ type, s.typeOf x = .ok type) ∧
    (∀ t, s.declare x = .ok t → t.typeOf x = .ok none ∧ ∀ y, y ≠ x → AnswerAlike y s t) ∧
    (∀ t, s.assign x value = .ok t → t.read x = .ok value ∧ ∀ y, y ≠ x → AnswerAlike y s t) ∧
    ∀ (devices : Devices) (m : Machine) (order : UInt64) (e : FrameError), m.frames = s →
      (s.declare x = .error e →
        m.perform devices order (.declare x) = .fault (.raised order (.frame e)) m) ∧
      (s.assign x value = .error e →
        m.perform devices order (.assign x value) = .fault (.raised order (.frame e)) m) := by
  refine ⟨?_, ?_, ?_, ?_, ?_, ?_, ?_, ?_⟩
  · intro e
    rw [typeOf_eq_error_iff, slot_eq_error_iff]
  · intro e
    rw [assign_eq_error_iff, typeOf_eq_error_iff]
  · intro e
    rw [read_eq_error_iff, typeOf_eq_error_iff]
    -- A slot that holds nothing is what has no type.
    apply or_congr_right
    apply and_congr_left
    intro _
    simp [typeOf_eq_ok_iff]
  · intro held done
    exact typeOf_eq_ok_iff.mpr ⟨some held, read_eq_ok_iff.mp done, rfl⟩
  · intro e
    rw [declare_eq_error_iff, typeOf_eq_error_iff]
    simp [typeOf_eq_ok_iff]
  · intro t done
    obtain ⟨_, held, same⟩ := declare_spec done
    refine ⟨typeOf_eq_ok_iff.mpr ⟨none, slot_eq_ok_iff.mpr held, rfl⟩, fun y other => ?_⟩
    exact .of_slot (same.slot_eq other)
  · intro t done
    obtain ⟨_, held, same⟩ := assign_spec done
    refine ⟨read_eq_ok_iff.mpr (slot_eq_ok_iff.mpr held), fun y other => ?_⟩
    exact .of_slot (same.slot_eq other)
  · rintro devices m order e rfl
    -- What is refused is never installed.
    constructor
    · intro refused
      rw [Machine.perform, refused, Machine.setFrames]
    · intro refused
      rw [Machine.perform, refused, Machine.setFrames]

/-- A global variable that has no value yet, one that is nil, and no temporary frame. -/
def halfAssigned : Frames :=
  { globals := ⟨[("x", none), ("y", some .nil)]⟩, temporary := none, locals := [] }

/-- Assigning nil to the first variable is a value like any other, and leaves the second alone. -/
theorem frames_are_a_partial_map_of_halfAssigned :
    let x : Variable := ⟨.globalFrame, "x"⟩
    let y : Variable := ⟨.globalFrame, "y"⟩
    ∃ t, halfAssigned.assign x .nil = .ok t ∧ t.read x = .ok .nil ∧ AnswerAlike y halfAssigned t ∧
      halfAssigned.read x = .error (.unassigned x) ∧
      halfAssigned.declare x = .error (.redeclared x) ∧
      halfAssigned.declare ⟨.temporaryFrame, "x"⟩ = .error (.missing .temporaryFrame) := by
  -- Both variables have slots in the global frame, and there is no temporary frame.
  intro x y
  have known := frames_are_a_partial_map halfAssigned x .nil
  have unknown := frames_are_a_partial_map halfAssigned ⟨.temporaryFrame, "x"⟩ .nil
  let t : Frames := { halfAssigned with globals := ⟨[("x", some .nil), ("y", some .nil)]⟩ }
  have done : halfAssigned.assign x .nil = .ok t := by decide
  have untyped : halfAssigned.typeOf x = .ok none := by decide
  have missing : halfAssigned.typeOf ⟨.temporaryFrame, "x"⟩ = .error (.missing .temporaryFrame) :=
    (unknown.1 _).mpr (.frame rfl)
  obtain ⟨assigned, others⟩ := known.2.2.2.2.2.2.1 t done
  refine ⟨t, done, assigned, others y (by decide), ?_, ?_, ?_⟩
  · exact (known.2.2.1 _).mpr (.inr ⟨untyped, rfl⟩)
  · exact (known.2.2.2.2.1 _).mpr (.inr ⟨rfl, none, untyped⟩)
  · exact (unknown.2.2.2.2.1 _).mpr (.inl ⟨rfl, missing⟩)

end Frames

end ThreeAddress
