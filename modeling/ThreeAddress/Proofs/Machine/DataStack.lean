import ThreeAddress.Proofs.Machine.Locality
import ThreeAddress.Proofs.Machine.Nesting

/-!
Values put aside. The data stack holds values and no references to variables, so that what a pop
takes from a height is what was pushed there, whatever has become of the variable since.
-/

namespace ThreeAddress.Machine

variable {devices : Devices} {image : Image} {m n : Machine} {i : Instruction}

/-- Pushes and pops change the data stack by one value, and nothing else changes it. -/
theorem advance_dataStack (next : m.advance devices image = .next n) :
    StackStep m.dataStack n.dataStack := by
  -- Every effect is looked at, and two of them touch the stack.
  obtain ⟨i, fetched⟩ := advance_next_fetched next
  obtain ⟨effect, after, _, carried, rfl⟩ := advance_next fetched next
  cases carried with
  | push value => exact .push _ _
  | pop top =>
    rw [show m.dataStack = _ from top]
    exact .pop _ _
  | skip | createFrame | pushFrame | popFrame | declare | assign | receive | call | ret | jump
  | write | dump | exit => exact .same _

/-- A push whose operand has a value puts this value on top of the stack, and cannot fail. -/
theorem advance_push {value : Value} (fetched : image.code[m.pc]? = some i)
    (op : i.opcode = .pushs) (resolved : i.value m.frames 0 = .ok value) :
    ∃ n, m.advance devices image = .next n ∧ n.dataStack = value :: m.dataStack := by
  -- The value is all that the effect needs, and putting it on the stack cannot fail.
  have reduced : i.effect image.labels m.frames = .ok (.push value) := by
    rw [Instruction.effect, op]
    exact bind_eq_ok_iff.mpr ⟨value, resolved, rfl⟩
  rw [advance_of_effect fetched reduced]
  exact ⟨_, rfl, rfl⟩

/-- A pop that succeeds takes the top of the stack, and its destination holds it then. -/
theorem advance_pop (fetched : image.code[m.pc]? = some i) (op : i.opcode = .pops)
    (next : m.advance devices image = .next n) :
    ∃ value x, m.dataStack = value :: n.dataStack ∧ i.operands.head? = some (.var x) ∧
      n.frames.held? x.frame.place x.name = some (some value) := by
  -- A pop has no other effect, and it succeeds only if there is a value.
  obtain ⟨effect, after, reduced, carried, rfl⟩ := advance_next fetched next
  have kind := i.effect_mayHave _ _ _ reduced
  rw [op] at kind
  cases carried with
  | pop top assigned =>
    have found := Instruction.destination_eq_ok_iff.mp (Instruction.effect_pop reduced)
    exact ⟨_, _, top, found, (Frames.assign_spec assigned).2.1⟩
  | _ => simp [Opcode.mayHave] at kind

/--
A pop returns what the push of its height has put aside, and leaves the stack as the push found it.

The run in between may push and pop at will, as long as the data stack does not become lower than
the push has left it. It may also assign to the variable that was pushed, discard its frame, call
and return. The image may be that of any program, and the machine may have come from anywhere.
-/
theorem pop_returns_what_was_pushed {push : Instruction} {value : Value}
    (fetched : image.code[m.pc]? = some push) (pushes : push.opcode = .pushs)
    (resolved : push.value m.frames 0 = .ok value) :
    ∃ pushed, m.advance devices image = .next pushed ∧ pushed.dataStack = value :: m.dataStack ∧
      ∀ steps last pop after, pushed.run devices image steps = .next last →
        (∀ k ≤ steps, ∀ a, pushed.run devices image k = .next a →
          pushed.dataStack.length ≤ a.dataStack.length) →
        image.code[last.pc]? = some pop → pop.opcode = .pops →
        last.dataStack.length = pushed.dataStack.length →
        last.advance devices image = .next after →
          after.dataStack = m.dataStack ∧
          ∃ x, pop.operands.head? = some (.var x) ∧
            after.frames.held? x.frame.place x.name = some (some value) := by
  obtain ⟨pushed, entered, stacked⟩ := advance_push fetched pushes resolved
  refine ⟨pushed, entered, stacked, ?_⟩
  intro steps last pop after ran high popFetched pops level taken
  -- At the level of the push, the stack that was kept is all there is.
  have kept := run_suffix Machine.dataStack (fun a b => advance_dataStack) (List.suffix_refl _)
    high ran
  have same : pushed.dataStack = last.dataStack := kept.eq_of_length level.symm
  obtain ⟨top, x, stack, first, held⟩ := advance_pop popFetched pops taken
  -- So what the pop takes off is what the push has put on.
  rw [← same, stacked] at stack
  obtain ⟨rfl, rest⟩ := List.cons.inj stack
  exact ⟨rest.symm, x, first, held⟩

/-- An empty text is pushed, its variable is lost, and a function pushes and pops in between. -/
def pushAndLose : Image :=
  { code := #[⟨.pushs, 1, [.var ⟨.temporaryFrame, "x"⟩]⟩, ⟨.createFrame, 2, []⟩,
      ⟨.call, 3, [.label "f"]⟩, ⟨.pops, 4, [.var ⟨.globalFrame, "y"⟩]⟩, ⟨.label, 5, [.label "f"]⟩,
      ⟨.pushs, 6, [.literal .nil]⟩, ⟨.pops, 7, [.var ⟨.globalFrame, "y"⟩]⟩, ⟨.ret, 8, []⟩],
    labels := [("f", 4)] }

/-- A machine with an empty text in a temporary variable, and a global one without a value. -/
def beforePush : Machine :=
  { Machine.fresh [] with frames :=
      { globals := ⟨[("y", none)]⟩, temporary := some ⟨[("x", some (.string ""))]⟩, locals := [] } }

/-- The empty text arrives in the other variable, although its own is gone. -/
theorem pop_returns_what_was_pushed_of_lost :
    ∃ pushed last after, beforePush.advance .willing pushAndLose = .next pushed ∧
      pushed.run .willing pushAndLose 6 = .next last ∧ last.frames.at? .temporary = some .empty ∧
      last.advance .willing pushAndLose = .next after ∧ after.dataStack = [] ∧
      after.frames.held? .globals "y" = some (some (.string "")) := by
  let pushed : Machine :=
    { beforePush with dataStack := [.string ""], pc := 1, executed := 1, last := some .pushs }
  -- The last pop is reached with another value in the variable, and without the pushed one.
  let last : Machine :=
    { pushed with
      frames := { globals := ⟨[("y", some .nil)]⟩, temporary := some .empty, locals := [] }
      pc := 3, executed := 6, last := some .ret }
  let after : Machine :=
    { last with
      frames := { last.frames with globals := ⟨[("y", some (.string ""))]⟩ }
      dataStack := [], pc := 4, executed := 7, last := some .pops }
  have high : ∀ k ≤ 6, ∀ a, pushed.run .willing pushAndLose k = .next a →
      pushed.dataStack.length ≤ a.dataStack.length := by
    intro k small a between
    rcases k with _ | _ | _ | _ | _ | _ | _ | k
    all_goals first | (cases between; decide) | omega
  have fetched : pushAndLose.code[beforePush.pc]? =
      some ⟨.pushs, 1, [.var ⟨.temporaryFrame, "x"⟩]⟩ := rfl
  obtain ⟨_, entered, _, returns⟩ :=
    @pop_returns_what_was_pushed .willing _ _ _ (.string "") fetched rfl rfl
  cases entered
  obtain ⟨restored, x, first, held⟩ := returns 6 last _ after rfl high rfl rfl rfl rfl
  cases first
  exact ⟨pushed, last, after, rfl, rfl, rfl, rfl, restored, held⟩

end ThreeAddress.Machine
