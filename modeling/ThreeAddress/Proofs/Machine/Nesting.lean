import ThreeAddress.Proofs.Machine.Control

/-!
Stacks during a run. What lies below the lowest height that a stack comes to is left alone, so that
a return continues behind the call that put its height on the stack.
-/

namespace ThreeAddress

/-- What one step makes of a stack: at most one element on top comes or goes. -/
inductive StackStep {α : Type} : List α → List α → Prop where
  | same (stack : List α) : StackStep stack stack
  | push (top : α) (stack : List α) : StackStep stack (top :: stack)
  | pop (top : α) (stack : List α) : StackStep (top :: stack) stack

/-- A step that ends no lower than some elements lie leaves these elements alone. -/
theorem StackStep.suffix {α : Type} {before after below : List α} (h : StackStep before after)
    (kept : below <:+ before) (high : below.length ≤ after.length) : below <:+ after := by
  cases h with
  | same => exact kept
  | push top => exact kept.trans (List.suffix_cons top before)
  | pop top =>
    -- Taking the top away reaches the elements below only if they were the whole stack.
    rcases List.suffix_cons_iff.mp kept with whole | kept
    · rw [whole, List.length_cons] at high
      omega
    · exact kept

namespace Machine

variable {devices : Devices} {image : Image} {m n : Machine}

/-- A stack that changes step by step keeps what lies below the lowest height of a run. -/
theorem run_suffix {α : Type} (stack : Machine → List α)
    (step : ∀ a b : Machine, a.advance devices image = .next b → StackStep (stack a) (stack b))
    {below : List α} {fuel : Nat} (kept : below <:+ stack m)
    (high : ∀ k ≤ fuel, ∀ a, m.run devices image k = .next a → below.length ≤ (stack a).length)
    (ran : m.run devices image fuel = .next n) : below <:+ stack n := by
  -- The last step of the run begins where the induction has arrived.
  induction fuel generalizing n with
  | zero =>
    cases ran
    exact kept
  | succ fuel ih =>
    obtain ⟨last, earlier, next⟩ := run_succ_eq_next_iff.mp ran
    have arrived := ih (fun k small => high k (Nat.le_succ_of_le small)) earlier
    exact (step last n next).suffix arrived (high (fuel + 1) (Nat.le_refl _) n ran)

/-- Calls and returns change the call stack by one position, and nothing else changes it. -/
theorem advance_callStack (next : m.advance devices image = .next n) :
    StackStep m.callStack n.callStack := by
  -- Every effect is looked at, and two of them touch the stack.
  obtain ⟨i, fetched⟩ := advance_next_fetched next
  obtain ⟨effect, after, _, carried, rfl⟩ := advance_next fetched next
  cases carried with
  | call target => exact .push _ _
  | ret top =>
    rw [show m.callStack = _ from top]
    exact .pop _ _
  | skip | createFrame | pushFrame | popFrame | declare | assign | receive | push | pop | jump
  | write | dump | exit => exact .same _

/--
A return continues behind the call that it belongs to, and leaves the stack as the call found it.

The run in between may call, return and jump at will, as long as the call stack does not become
lower than the call has left it. The image may be that of any program, and the machine may have
come from anywhere.
-/
theorem return_follows_call {call ret : Instruction} {called last after : Machine} {steps : Nat}
    (callFetched : image.code[m.pc]? = some call) (calls : call.opcode = .call)
    (entered : m.advance devices image = .next called)
    (ran : called.run devices image steps = .next last)
    (high : ∀ k ≤ steps, ∀ a, called.run devices image k = .next a →
      called.callStack.length ≤ a.callStack.length)
    (retFetched : image.code[last.pc]? = some ret) (returns : ret.opcode = .ret)
    (level : last.callStack.length = called.callStack.length)
    (left : last.advance devices image = .next after) :
    after.pc = m.pc + 1 ∧ after.callStack = m.callStack := by
  -- At the level of the call, the stack that was kept is all there is.
  have kept := run_suffix Machine.callStack (fun a b => advance_callStack) (List.suffix_refl _)
    high ran
  have same : called.callStack = last.callStack := kept.eq_of_length level.symm
  obtain ⟨_, pushed⟩ := advance_call callFetched calls entered
  obtain ⟨position, top, behind⟩ := advance_ret retFetched returns left
  -- So what the return takes off is what the call has put on.
  rw [← same, pushed] at top
  obtain ⟨rfl, rest⟩ := List.cons.inj top
  exact ⟨behind, rest.symm⟩

/-- Two functions, of which the first calls the second; the program calls the first. -/
def nestedCalls : Image :=
  { code := #[⟨.call, 1, [.label "f"]⟩, ⟨.exit, 2, [.literal (.int 0)]⟩, ⟨.label, 3, [.label "f"]⟩,
      ⟨.call, 4, [.label "g"]⟩, ⟨.ret, 5, []⟩, ⟨.label, 6, [.label "g"]⟩, ⟨.ret, 7, []⟩],
    labels := [("g", 5), ("f", 2)] }

/-- A machine that has just called the first of two nested functions. -/
def inFirstFunction : Machine :=
  { Machine.fresh [] with pc := 2, callStack := [0], executed := 1, last := some .call }

/-- The return of the outer function continues behind the outer call, after an inner call. -/
theorem return_follows_call_of_nestedCalls :
    ∃ last after, inFirstFunction.run .willing nestedCalls 4 = .next last ∧
      last.advance .willing nestedCalls = .next after ∧ after.pc = 1 ∧ after.callStack = [] := by
  let last := { inFirstFunction with pc := 4, executed := 3, last := some .ret }
  let after := { last with pc := 1, callStack := [], executed := 4 }
  have ran : inFirstFunction.run .willing nestedCalls 4 = .next last := rfl
  have left : last.advance .willing nestedCalls = .next after := rfl
  refine ⟨last, after, ran, left, ?_⟩
  have called : (Machine.fresh []).advance .willing nestedCalls = .next inFirstFunction := rfl
  have calls : nestedCalls.code[0]? = some ⟨.call, 1, [.label "f"]⟩ := rfl
  have returns : nestedCalls.code[4]? = some ⟨.ret, 5, []⟩ := rfl
  refine return_follows_call calls rfl called ran ?_ returns rfl rfl left
  intro k small a between
  -- Within the four steps there is one position on the stack at least.
  rcases k with _ | _ | _ | _ | _ | k
  all_goals first | (cases between; decide) | omega

end Machine

end ThreeAddress
