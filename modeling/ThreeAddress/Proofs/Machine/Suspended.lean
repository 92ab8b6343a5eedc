import ThreeAddress.Proofs.Machine.FailingStep
import ThreeAddress.Proofs.Machine.Lives
import ThreeAddress.Proofs.Machine.Locality

/-!
Suspended frames. An operation reaches no local frame below the topmost, so that the lower ones come
out of any sequence of operations as they went in. Frames move as a whole, and whatever is done to a
frame is done in one place.
-/

namespace ThreeAddress

namespace Frames

/-- The operations on frames, of which the last three only look at them. -/
inductive Operation where
  | create
  | push
  | pop
  | declare (x : Variable)
  | assign (x : Variable) (value : Value)
  | read (x : Variable)
  | typeOf (x : Variable)
  | frame (tag : FrameTag)
  deriving DecidableEq, Repr

/-- What an operation makes of frames, unless it is refused. -/
def Operation.result (s : Frames) : Operation → Except FrameError Frames
  | create => .ok s.create
  | push => s.push
  | pop => s.pop
  | declare x => s.declare x
  | assign x value => s.assign x value
  | read x => (s.read x).map fun _ => s
  | typeOf x => (s.typeOf x).map fun _ => s
  | frame tag => (s.frame tag).map fun _ => s

/-- The frames after an operation, which are those before it where it is refused. -/
def after (s : Frames) (operation : Operation) : Frames :=
  match operation.result s with
  | .error _ => s
  | .ok t => t

/-- The frames after operations one after another, where none stops the next. -/
def afterAll (s : Frames) (operations : List Operation) : Frames :=
  operations.foldl after s

/-- The given number of local frames at the bottom of the stack, or all if there are fewer. -/
def bottom (s : Frames) (count : Nat) : List Frame :=
  s.locals.drop (s.locals.length - count)

/-- The frame that a tag addresses is replaced, and was there before. -/
inductive Replaced (s : Frames) (tag : FrameTag) : Frames → Prop where
  | intro {f : Frame} (present : s.at? tag.place = some f) (g : Frame) :
      Replaced s tag (s.replace g tag)

/-- What becomes of frames at once: they stay, move as a whole, or one is replaced in its place. -/
inductive Change : Frames → Frames → Prop where
  | kept (s : Frames) : Change s s
  | moved {opcode : Opcode} {s t : Frames} (moved : Moved opcode s t) : Change s t
  | replaced {s t : Frames} {tag : FrameTag} (replaced : s.Replaced tag t) : Change s t

variable {s t : Frames} {x : Variable} {place : Place} {count : Nat}

/-- Replacing a frame leaves the frames in other places alone. -/
theorem Replaced.at?_eq {tag : FrameTag} (h : s.Replaced tag t) (elsewhere : place ≠ tag.place) :
    t.at? place = s.at? place := by
  -- One place has another frame, and it is not the place that is looked at.
  obtain ⟨_, g⟩ := h
  rw [at?_replace, if_neg elsewhere]

/-- A declaration replaces the frame that it addresses. -/
theorem declare_replaced (done : s.declare x = .ok t) : s.Replaced x.frame t := by
  -- The frame is the one that the name is looked for in.
  obtain ⟨f, addressed, done⟩ := bind_eq_ok_iff.mp done
  split at done
  · cases done
  · cases done
    exact .intro (frame_eq_ok_iff.mp addressed) _

/-- An assignment replaces the frame that it addresses. -/
theorem assign_replaced {value : Value} (done : s.assign x value = .ok t) :
    s.Replaced x.frame t := by
  -- The frame is the one that the name is looked for in.
  obtain ⟨f, addressed, done⟩ := bind_eq_ok_iff.mp done
  split at done
  · cases done
  · cases done
    exact .intro (frame_eq_ok_iff.mp addressed) _

private theorem looked_change {α : Type} {found : Except FrameError α}
    (looked : (found.map fun _ => s) = .ok t) : Change s t := by
  -- A look at the frames that succeeds gives them back as they were.
  obtain ⟨_, _, rfl⟩ := map_eq_ok_iff.mp looked
  exact .kept t

/-- An operation changes frames at most once, whether it is refused or not. -/
theorem after_change (s : Frames) (operation : Operation) : Change s (s.after operation) := by
  -- What is refused changes nothing, and neither does looking at frames.
  unfold after
  split
  · exact .kept s
  · rename_i t done
    cases operation with
    | create =>
      cases done
      exact .moved (.created s.globals s.temporary s.locals)
    | push => exact .moved (push_moved done)
    | pop => exact .moved (pop_moved done)
    | declare x => exact .replaced (declare_replaced done)
    | assign x value => exact .replaced (assign_replaced done)
    | read x => exact looked_change done
    | typeOf x => exact looked_change done
    | frame tag => exact looked_change done

private theorem drop_cons {f : Frame} {rest : List Frame} (high : count < (f :: rest).length) :
    (f :: rest).drop ((f :: rest).length - count) = rest.drop (rest.length - count) := by
  -- The topmost frame is none of those at the bottom.
  rw [List.length_cons, Nat.succ_sub (Nat.le_of_lt_succ high), List.drop_succ_cons]

/-- A change leaves alone what lies below the topmost local frame both before and after it. -/
theorem Change.bottom (change : Change s t) (before : count < s.locals.length)
    (after : count < t.locals.length) : t.bottom count = s.bottom count := by
  -- In each case the two stacks of local frames differ by the topmost frame at most.
  unfold Frames.bottom
  cases change with
  | kept => rfl
  | moved moved =>
    cases moved with
    | created => rfl
    | pushed => exact drop_cons after
    | popped => exact (drop_cons before).symm
  | @replaced _ _ tag replaced =>
    obtain ⟨present, g⟩ := replaced
    cases tag with
    | globalFrame => rfl
    | temporaryFrame => rfl
    | localFrame =>
      cases locals : s.locals with
      | nil => simp [locals] at before
      | cons top rest =>
        rw [locals] at before
        simp only [replace, locals, List.tail_cons]
        rw [drop_cons before]
        exact drop_cons before

/-- Changes one after another leave alone what is below the topmost local frame all the while. -/
theorem bottom_of_changes (states : Nat → Frames) {steps : Nat}
    (changes : ∀ k < steps, Change (states k) (states (k + 1)))
    (deep : ∀ k ≤ steps, count < (states k).locals.length) :
    (states steps).bottom count = (states 0).bottom count := by
  -- The stack is high enough on both sides of each change.
  induction steps with
  | zero => rfl
  | succ steps ih =>
    have earlier := ih (fun k small => changes k (Nat.lt_succ_of_lt small))
      (fun k small => deep k (Nat.le_succ_of_le small))
    rw [← earlier]
    exact (changes steps (Nat.lt_succ_self _)).bottom (deep steps (Nat.le_succ _))
      (deep (steps + 1) (Nat.le_refl _))

/-- Operations one after another leave alone what is below the topmost local frame all the while. -/
theorem bottom_afterAll {operations : List Operation}
    (deep : ∀ done, done <+: operations → count < (s.afterAll done).locals.length) :
    (s.afterAll operations).bottom count = s.bottom count := by
  -- The states in between are those after each number of operations.
  have changes : ∀ k < operations.length,
      Change (s.afterAll (operations.take k)) (s.afterAll (operations.take (k + 1))) := by
    intro k small
    rw [List.take_succ_eq_append_getElem small, afterAll, afterAll, List.foldl_append]
    exact after_change _ _
  have kept := bottom_of_changes (fun k => s.afterAll (operations.take k)) changes
    fun k _ => deep _ (List.take_prefix k operations)
  rwa [List.take_length] at kept

/-- Suspending a frame and taking it back restores all frames. -/
theorem push_pop {f : Frame} (present : s.temporary = some f) : s.push >>= pop = .ok s := by
  -- The frame is taken back from where it was put, and the others have not moved.
  refine bind_eq_ok_iff.mpr ⟨_, push_eq_ok_iff.mpr ⟨f, present, rfl⟩, ?_⟩
  refine pop_eq_ok_iff.mpr ⟨f, s.locals, rfl, ?_⟩
  rw [← present]

/-- Taking a frame back and suspending it again restores all but the temporary frame. -/
theorem pop_push (present : s.locals ≠ []) : s.pop >>= push = .ok { s with temporary := none } := by
  -- The frame that was taken off lies on top again, and its place is empty.
  obtain ⟨f, rest, locals⟩ := List.exists_cons_of_ne_nil present
  refine bind_eq_ok_iff.mpr ⟨_, pop_eq_ok_iff.mpr ⟨f, rest, locals, rfl⟩, ?_⟩
  refine push_eq_ok_iff.mpr ⟨f, rfl, ?_⟩
  rw [← locals]

/-- Declaring and assigning reach one place only, whether they are refused or not. -/
theorem at?_after {operation : Operation}
    (named : operation = .declare x ∨ ∃ value, operation = .assign x value)
    (elsewhere : place ≠ x.frame.place) : (s.after operation).at? place = s.at? place := by
  -- What is refused changes nothing at all.
  unfold after
  split
  · rfl
  · rename_i t done
    rcases named with rfl | ⟨value, rfl⟩
    · exact (declare_replaced done).at?_eq elsewhere
    · exact (assign_replaced done).at?_eq elsewhere

end Frames

namespace Instruction.Reframes

variable {i : Instruction} {m : Machine} {frames : Frames}

/-- What an instruction makes of frames is one change. -/
theorem change (h : i.Reframes m frames) : Frames.Change m.frames frames := by
  -- The ways in which instructions change frames are the ways in which operations do.
  cases h with
  | kept => exact .kept _
  | moved _ moved => exact .moved moved
  | declared x _ _ declared => exact .replaced (Frames.declare_replaced declared)
  | assigned x _ _ _ assigned => exact .replaced (Frames.assign_replaced assigned)

/-- Where no frames are moved, those that the first operand does not address are left alone. -/
theorem at?_eq (h : i.Reframes m frames) {place : Place} (still : i.opcode.movesFrames = false)
    (elsewhere : ∀ x, i.operands.head? = some (.var x) → place ≠ x.frame.place) :
    frames.at? place = m.frames.at? place := by
  -- Either the frame that the first operand addresses is replaced, or none is.
  cases h with
  | kept => rfl
  | moved moves => simp [still] at moves
  | declared x _ first declared =>
    exact (Frames.declare_replaced declared).at?_eq (elsewhere x first)
  | assigned x _ first _ assigned =>
    exact (Frames.assign_replaced assigned).at?_eq (elsewhere x first)

end Instruction.Reframes

namespace Machine

variable {devices : Devices} {image : Image} {m n : Machine} {i : Instruction}

/-- A step leaves the frames alone, or changes them in the way of its instruction. -/
theorem advance_reframes (fetched : image.code[m.pc]? = some i) :
    (m.advance devices image).machine.frames = m.frames ∨
      i.Reframes m (m.advance devices image).machine.frames := by
  -- Whatever succeeds carries an effect out, and whatever fails has no effect on frames.
  cases stepped : m.advance devices image with
  | next n => exact .inr (reframes_of_succeeds fetched (by rw [stepped]; exact .next n))
  | exit code n => exact .inr (reframes_of_succeeds fetched (by rw [stepped]; exact .exit code n))
  | fault fault n =>
    rw [Outcome.machine, advance_fault_unchanged stepped]
    exact .inl rfl

/-- A step changes frames at most once, however it ends. -/
theorem advance_change (devices : Devices) (image : Image) (m : Machine) :
    Frames.Change m.frames (m.advance devices image).machine.frames := by
  -- Behind the last instruction there is nothing to change frames.
  cases fetched : image.code[m.pc]? with
  | none =>
    rw [Machine.advance, fetched]
    exact .kept _
  | some i =>
    rcases advance_reframes fetched with same | change
    · rw [same]
      exact .kept _
    · exact change.change

/-- A run leaves alone what is below the topmost local frame all the while, however it ends. -/
theorem run_bottom {steps count : Nat}
    (deep : ∀ k ≤ steps, count < (m.run devices image k).machine.frames.locals.length) :
    (m.run devices image steps).machine.frames.bottom count = m.frames.bottom count := by
  refine Frames.bottom_of_changes (fun k => (m.run devices image k).machine.frames)
    (fun k _ => ?_) deep
  -- One more step is taken, or the run has ended and everything stays.
  rw [run_succ]
  cases m.run devices image k with
  | next last => exact advance_change devices image last
  | exit code last => exact .kept _
  | fault fault last => exact .kept _

/-- A step that moves no frames leaves those alone that its first operand does not address. -/
theorem advance_at? (fetched : image.code[m.pc]? = some i) {place : Place}
    (still : i.opcode.movesFrames = false)
    (elsewhere : ∀ x, i.operands.head? = some (.var x) → place ≠ x.frame.place) :
    (m.advance devices image).machine.frames.at? place = m.frames.at? place := by
  -- A step that fails leaves all frames alone.
  rcases advance_reframes fetched with same | change
  · rw [same]
  · exact change.at?_eq still elsewhere

private theorem advance_pushFrame {frames : Frames} (fetched : image.code[m.pc]? = some i)
    (op : i.opcode = .pushFrame) (moved : m.frames.push = .ok frames) :
    ∃ n, m.advance devices image = .next n ∧ n.pc = m.pc + 1 ∧ n.frames = frames := by
  -- The instruction has one effect, which is known to succeed.
  have reduced : i.effect image.labels m.frames = .ok .pushFrame := by rw [Instruction.effect, op]
  rw [advance_of_effect fetched reduced, Machine.perform, moved]
  exact ⟨_, rfl, rfl, rfl⟩

private theorem advance_popFrame {frames : Frames} (fetched : image.code[m.pc]? = some i)
    (op : i.opcode = .popFrame) (moved : m.frames.pop = .ok frames) :
    ∃ n, m.advance devices image = .next n ∧ n.pc = m.pc + 1 ∧ n.frames = frames := by
  -- The instruction has one effect, which is known to succeed.
  have reduced : i.effect image.labels m.frames = .ok .popFrame := by rw [Instruction.effect, op]
  rw [advance_of_effect fetched reduced, Machine.perform, moved]
  exact ⟨_, rfl, rfl, rfl⟩

private theorem run_two {second : Machine} (first : m.advance devices image = .next second)
    (next : second.advance devices image = .next n) : m.run devices image 2 = .next n := by
  -- Neither of the steps ends the run.
  simp [Machine.run, first, next]

/-- Suspending a frame and taking it back with the next instruction restores all frames. -/
theorem run_push_pop {j : Instruction} (fetched : image.code[m.pc]? = some i)
    (following : image.code[m.pc + 1]? = some j) (pushes : i.opcode = .pushFrame)
    (pops : j.opcode = .popFrame) (present : m.frames.temporary ≠ none) :
    ∃ n, m.run devices image 2 = .next n ∧ n.frames = m.frames := by
  -- The second instruction is fetched right behind the first, with the frames that it has left.
  obtain ⟨f, present⟩ := Option.ne_none_iff_exists'.mp present
  obtain ⟨frames, pushed, popped⟩ := bind_eq_ok_iff.mp (Frames.push_pop present)
  obtain ⟨second, first, behind, same⟩ := advance_pushFrame fetched pushes pushed
  rw [← behind] at following
  rw [← same] at popped
  obtain ⟨n, next, _, restored⟩ := advance_popFrame following pops popped
  exact ⟨n, run_two first next, restored⟩

/-- Taking a frame back and suspending it with the next instruction loses the temporary frame. -/
theorem run_pop_push {j : Instruction} (fetched : image.code[m.pc]? = some i)
    (following : image.code[m.pc + 1]? = some j) (pops : i.opcode = .popFrame)
    (pushes : j.opcode = .pushFrame) (present : m.frames.locals ≠ []) :
    ∃ n, m.run devices image 2 = .next n ∧ n.frames = { m.frames with temporary := none } := by
  -- The second instruction finds the frames as the first one left them.
  obtain ⟨frames, popped, pushed⟩ := bind_eq_ok_iff.mp (Frames.pop_push present)
  obtain ⟨second, first, behind, same⟩ := advance_popFrame fetched pops popped
  rw [← behind] at following
  rw [← same] at pushed
  obtain ⟨n, next, _, restored⟩ := advance_pushFrame following pushes pushed
  exact ⟨n, run_two first next, restored⟩

end Machine

/--
Suspended frames cannot be touched, and no frame is in two places.

As long as there are more local frames than a number, that many at the bottom of the stack are left
alone by any sequence of operations, refused or not. Suspending undoes taking back and the other way
round, where the temporary frame that was there is lost. Declaring and assigning change no frame but
the one that the variable addresses, under whatever name that frame was addressed before. All this
holds of a machine as well, from any state on and however its run ends.
-/
theorem suspended_frames_are_untouchable :
    (∀ (s : Frames) (operations : List Frames.Operation) (count : Nat),
      (∀ done, done <+: operations → count < (s.afterAll done).locals.length) →
        (s.afterAll operations).bottom count = s.bottom count) ∧
    (∀ s : Frames, s.temporary ≠ none → s.push >>= Frames.pop = .ok s) ∧
    (∀ s : Frames, s.locals ≠ [] → s.pop >>= Frames.push = .ok { s with temporary := none }) ∧
    (∀ (s : Frames) (x : Variable) (operation : Frames.Operation),
      (operation = .declare x ∨ ∃ value, operation = .assign x value) →
        ∀ place, place ≠ x.frame.place → (s.after operation).at? place = s.at? place) ∧
    ∀ (devices : Devices) (image : Image) (m : Machine),
      (∀ steps count,
        (∀ k ≤ steps, count < (m.run devices image k).machine.frames.locals.length) →
          (m.run devices image steps).machine.frames.bottom count = m.frames.bottom count) ∧
      ∀ i, image.code[m.pc]? = some i →
        (i.opcode.movesFrames = false →
          ∀ place, (∀ x, i.operands.head? = some (.var x) → place ≠ x.frame.place) →
            (m.advance devices image).machine.frames.at? place = m.frames.at? place) ∧
        ∀ j, image.code[m.pc + 1]? = some j →
          (i.opcode = .pushFrame → j.opcode = .popFrame → m.frames.temporary ≠ none →
            ∃ n, m.run devices image 2 = .next n ∧ n.frames = m.frames) ∧
          (i.opcode = .popFrame → j.opcode = .pushFrame → m.frames.locals ≠ [] →
            ∃ n, m.run devices image 2 = .next n ∧
              n.frames = { m.frames with temporary := none }) := by
  -- What holds of every operation on frames holds of every step and of every run.
  refine ⟨fun s operations count deep => Frames.bottom_afterAll deep, ?_,
    fun s present => Frames.pop_push present,
    fun s x operation named place elsewhere => Frames.at?_after named elsewhere, ?_⟩
  · intro s present
    obtain ⟨f, present⟩ := Option.ne_none_iff_exists'.mp present
    exact Frames.push_pop present
  · intro devices image m
    refine ⟨fun steps count deep => Machine.run_bottom deep, ?_⟩
    intro i fetched
    refine ⟨fun still place elsewhere => Machine.advance_at? fetched still elsewhere, ?_⟩
    intro j following
    exact ⟨Machine.run_push_pop fetched following, Machine.run_pop_push fetched following⟩

/-- Two local frames with one name, of which only the topmost is addressed, and a temporary one. -/
def twoSuspended : Frames :=
  { globals := .empty, temporary := some .empty,
    locals := [⟨[("x", none)]⟩, ⟨[("x", some (.int 7))]⟩] }

/-- Operations that reach as deep as they can while the lower of two local frames is suspended. -/
def shadowing : List Frames.Operation :=
  [.assign ⟨.localFrame, "x"⟩ (.int 1), .push, .push, .assign ⟨.localFrame, "x"⟩ (.int 2),
    .declare ⟨.localFrame, "x"⟩, .pop, .assign ⟨.temporaryFrame, "x"⟩ (.int 3)]

/-- Instructions that assign to the topmost local frame, suspend another and take it back. -/
def shadowingImage : Image :=
  { code := #[⟨.move, 1, [.var ⟨.localFrame, "x"⟩, .literal (.int 1)]⟩, ⟨.pushFrame, 2, []⟩,
      ⟨.popFrame, 3, []⟩],
    labels := [] }

/-- The lower of two frames keeps its value under the same name, and so it does in a machine. -/
theorem suspended_frames_are_untouchable_of_shadowing :
    (∀ done, done <+: shadowing → 1 < (twoSuspended.afterAll done).locals.length) ∧
    (twoSuspended.afterAll shadowing).bottom 1 = [⟨[("x", some (.int 7))]⟩] ∧
    twoSuspended.push >>= Frames.pop = .ok twoSuspended ∧
    (Machine.run .willing shadowingImage 3
      { Machine.fresh [] with frames := twoSuspended }).machine.frames.bottom 1 =
        [⟨[("x", some (.int 7))]⟩] := by
  obtain ⟨operations, restored, _, _, machines⟩ := suspended_frames_are_untouchable
  have deep : ∀ done, done <+: shadowing → 1 < (twoSuspended.afterAll done).locals.length := by
    -- There are as many beginnings as there are numbers of operations.
    have taken : ∀ k ≤ 7, 1 < (twoSuspended.afterAll (shadowing.take k)).locals.length := by decide
    intro done started
    rw [List.prefix_iff_eq_take.mp started]
    exact taken _ started.length_le
  let m := { Machine.fresh [] with frames := twoSuspended }
  have kept := (machines .willing shadowingImage m).1 3 1 (by decide)
  exact ⟨deep, operations twoSuspended shadowing 1 deep, restored twoSuspended nofun, kept⟩

end ThreeAddress
