import ThreeAddress.Machine.Frames
import ThreeAddress.Proofs.Result

/-!
Frames by their places. Every frame has a place of its own and every variable a slot in one of
them, and what an operation on frames does is told by the slots that are not as they were before.
-/

namespace ThreeAddress

namespace Frame

variable {f : Frame} {name other : String}

private theorem lookup_entry (present : String) (held : Option Value)
    (rest : List (String × Option Value)) :
    ((present, held) :: rest).lookup other =
      if other = present then some held else rest.lookup other := by
  -- Names are compared as they are.
  rw [List.lookup_cons]
  by_cases same : other = present
  · rw [if_pos same, beq_iff_eq.mpr same]
  · rw [if_neg same, beq_eq_false_iff_ne.mpr same]

private theorem lookup_insertName {slots : List (String × Option Value)}
    (absent : slots.lookup name = none) :
    (insertName name slots).lookup other =
      if other = name then some none else slots.lookup other := by
  -- The new entry is found, for none before it has the name.
  induction slots with
  | nil => exact lookup_entry name none []
  | cons entry rest ih =>
    obtain ⟨present, held⟩ := entry
    rw [lookup_entry] at absent
    split at absent
    · cases absent
    · rename_i new
      rw [insertName]
      split
      · exact lookup_entry name none _
      · rw [lookup_entry, lookup_entry, ih absent]
        by_cases same : other = name
        · simp only [same, new, if_true, if_false]
        · simp only [same, if_false]

/-- A frame with a new name differs by this name alone, which has no value. -/
theorem slot?_declare (absent : f.slot? name = none) :
    (f.declare name).slot? other = if other = name then some none else f.slot? other :=
  lookup_insertName absent

/-- A frame that was assigned a value differs by the slot of one name alone. -/
theorem slot?_assign (value : Value) :
    (f.assign name value).slot? other =
      (f.slot? other).map fun held => if other = name then some value else held := by
  -- Values are replaced in place, so that names are found where they were.
  simp only [slot?, Frame.assign]
  induction f.slots with
  | nil => rfl
  | cons entry rest ih =>
    obtain ⟨present, held⟩ := entry
    rw [List.map_cons, lookup_entry, lookup_entry, ih]
    by_cases same : other = present
    · simp only [same, if_true, Option.map_some]
    · simp only [same, if_false]

end Frame

/-- Where a frame is; suspended ones are counted from the top. -/
inductive Place where
  | globals
  | temporary
  | suspended (depth : Nat)
  deriving DecidableEq, Repr

/-- The place of the frame that a tag addresses. -/
def FrameTag.place : FrameTag → Place
  | globalFrame => .globals
  | localFrame => .suspended 0
  | temporaryFrame => .temporary

namespace Frames

variable {s t : Frames} {x : Variable}

/-- The frame in a place, if there is one. -/
def at? (s : Frames) : Place → Option Frame
  | .globals => some s.globals
  | .temporary => s.temporary
  | .suspended depth => s.locals[depth]?

/-- What the frame in a place holds under a name, if it is there and the name is declared in it. -/
def held? (s : Frames) (place : Place) (name : String) : Option (Option Value) :=
  (s.at? place).bind fun f => f.slot? name

/-- A tag addresses the frame in its place. -/
theorem frame_eq_ok_iff {tag : FrameTag} {f : Frame} :
    s.frame tag = .ok f ↔ s.at? tag.place = some f := by
  -- The topmost suspended frame is the one at depth zero.
  obtain ⟨globals, temporary, locals⟩ := s
  cases tag with
  | globalFrame => simp [Frames.frame, FrameTag.place, Frames.at?]
  | localFrame => cases locals <;> simp [Frames.frame, FrameTag.place, Frames.at?]
  | temporaryFrame => cases temporary <;> simp [Frames.frame, FrameTag.place, Frames.at?]

/-- Replacing a frame changes what is in its place, and in no other. -/
theorem at?_replace (f : Frame) (tag : FrameTag) (place : Place) :
    (s.replace f tag).at? place = if place = tag.place then some f else s.at? place := by
  -- Each tag stands for one place, and the local frames below the top have none.
  cases tag <;> rcases place with _ | _ | _ | depth <;>
    simp [Frames.replace, FrameTag.place, Frames.at?]

/-- Frames in the same places, which hold the same but for the slot of one variable. -/
structure SameBut (x : Variable) (s t : Frames) : Prop where
  frames : ∀ place, (t.at? place).isSome = (s.at? place).isSome
  slots : ∀ place name, ¬ (place = x.frame.place ∧ name = x.name) →
    t.held? place name = s.held? place name

private theorem sameBut_replace {f changed : Frame} (present : s.at? x.frame.place = some f)
    (kept : ∀ name, name ≠ x.name → changed.slot? name = f.slot? name) :
    SameBut x s (s.replace changed x.frame) where
  frames place := by
    -- The frame that is replaced was there before.
    rw [at?_replace]
    split
    · rename_i here
      rw [here, present]
      rfl
    · rfl
  slots place name elsewhere := by
    unfold held?
    rw [at?_replace]
    split
    · rename_i here
      rw [here, present]
      exact kept name fun same => elsewhere ⟨here, same⟩
    · rfl

private theorem held?_replace {changed : Frame} :
    (s.replace changed x.frame).held? x.frame.place x.name = changed.slot? x.name := by
  -- What is in the place now is the frame that was put there.
  unfold held?
  rw [at?_replace, if_pos rfl]
  rfl

/-- A declaration adds one name without a value to the frame that it addresses. -/
theorem declare_spec (done : s.declare x = .ok t) :
    s.held? x.frame.place x.name = none ∧ t.held? x.frame.place x.name = some none ∧
      SameBut x s t := by
  -- The frame that is addressed is there, and the name is not in it.
  obtain ⟨f, addressed, done⟩ := bind_eq_ok_iff.mp done
  have present := frame_eq_ok_iff.mp addressed
  split at done
  · cases done
  · rename_i absent
    cases done
    refine ⟨?_, ?_, sameBut_replace present fun name other => ?_⟩
    · rw [held?, present]
      exact absent
    · rw [held?_replace, Frame.slot?_declare absent, if_pos rfl]
    · rw [Frame.slot?_declare absent, if_neg other]

/-- An assignment changes the value of a variable that was declared before. -/
theorem assign_spec {value : Value} (done : s.assign x value = .ok t) :
    (s.held? x.frame.place x.name).isSome = true ∧
      t.held? x.frame.place x.name = some (some value) ∧ SameBut x s t := by
  -- The frame that is addressed is there, and the name is in it.
  obtain ⟨f, addressed, done⟩ := bind_eq_ok_iff.mp done
  have present := frame_eq_ok_iff.mp addressed
  split at done
  · cases done
  · rename_i held declared
    cases done
    refine ⟨?_, ?_, sameBut_replace present fun name other => ?_⟩
    · rw [held?, present, Option.bind_some, declared]
      rfl
    · rw [held?_replace, Frame.slot?_assign, declared]
      simp
    · rw [Frame.slot?_assign]
      simp [other]

/-- Suspending takes the temporary frame to the top of the others, whole and alone. -/
theorem push_eq_ok_iff : s.push = .ok t ↔
    ∃ f, s.temporary = some f ∧ t = ⟨s.globals, none, f :: s.locals⟩ := by
  -- Only a missing temporary frame is refused.
  unfold Frames.push
  split
  · rename_i missing
    simp [missing]
  · rename_i f present
    simp [present, eq_comm]

/-- Resuming takes the topmost suspended frame back, whole and alone. -/
theorem pop_eq_ok_iff : s.pop = .ok t ↔
    ∃ f rest, s.locals = f :: rest ∧ t = ⟨s.globals, some f, rest⟩ := by
  -- Only an empty stack of suspended frames is refused.
  unfold Frames.pop
  split
  · rename_i missing
    simp [missing]
  · rename_i f rest present
    rw [present, Except.ok.injEq, eq_comm]
    constructor
    · rintro rfl
      exact ⟨f, rest, rfl, rfl⟩
    · rintro ⟨_, _, same, rfl⟩
      obtain ⟨rfl, rfl⟩ := List.cons.inj same
      rfl

end Frames

end ThreeAddress
