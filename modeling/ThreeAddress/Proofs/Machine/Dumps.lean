import ThreeAddress.Proofs.Machine.FailingStep
import ThreeAddress.Proofs.Machine.Histories
import ThreeAddress.Proofs.Machine.Linking
import ThreeAddress.Proofs.Machine.Locality
import ThreeAddress.Proofs.Machine.Messages

/-!
Dumps tell the truth. What a dump shows of stacks and counters follows from what the machine has
completed since it was new, however often it was restarted and however its executions ended.
-/

namespace ThreeAddress

section Unclosed

variable {α β : Type} (opens : α → Option β) (closes : α → Bool)

/--
What a history has opened and not closed, where both are listed latest first.

A closing belongs to the latest opening before it that no other closing belongs to. The depth is
the number of closings, later than the history, whose openings are still to be found in it.
-/
def unclosed : Nat → List α → List β
  | _, [] => []
  | depth, a :: earlier =>
    if closes a then unclosed (depth + 1) earlier
    else
      match opens a, depth with
      | none, depth => unclosed depth earlier
      | some b, 0 => b :: unclosed 0 earlier
      | some _, depth + 1 => unclosed depth earlier

/-- What one more element of a history does to the stack of what is not closed. -/
inductive Restacks (a : α) : List β → List β → Prop where
  | opened {b : β} (stack : List β) (lasts : closes a = false) (opened : opens a = some b) :
      Restacks a stack (b :: stack)
  | closed (b : β) (stack : List β) (closing : closes a = true) : Restacks a (b :: stack) stack
  | kept (stack : List β) (lasts : closes a = false) (nothing : opens a = none) :
      Restacks a stack stack

variable {opens closes}

/-- Later closings take the latest of what is open. -/
theorem unclosed_eq_drop (depth : Nat) (history : List α) :
    unclosed opens closes depth history = (unclosed opens closes 0 history).drop depth := by
  -- A closing makes the search deeper and an opening ends it, so the depth has to be general.
  induction history generalizing depth with
  | nil => simp [unclosed]
  | cons a earlier ih =>
    by_cases closing : closes a = true
    · simp only [unclosed, closing, if_true]
      rw [ih (depth + 1), ih 1, List.drop_drop, Nat.add_comm]
    · cases content : opens a with
      | none => simpa [unclosed, closing, content] using ih depth
      | some b =>
        cases depth with
        | zero => rfl
        | succ depth => simpa [unclosed, closing, content] using ih depth

/-- A stack that changes with each element of a history holds what the history left open. -/
theorem Restacks.eq_unclosed {a : α} {before after : List β} {history : List α}
    (change : Restacks opens closes a before after)
    (known : before = unclosed opens closes 0 history) :
    after = unclosed opens closes 0 (a :: history) := by
  -- A closing is where the search of the history begins at another depth.
  cases change with
  | opened stack lasts opened => simp [unclosed, lasts, opened, known]
  | closed b stack closing =>
    have taken : unclosed opens closes 0 (a :: history) = unclosed opens closes 1 history := by
      simp [unclosed, closing]
    rw [taken, unclosed_eq_drop, ← known, List.drop_one, List.tail_cons]
  | kept stack lasts nothing => simp [unclosed, lasts, nothing, known]

end Unclosed

namespace Completion

/-- The position of a completed call. -/
def call? (c : Completion) : Option Nat :=
  if c.instruction.opcode = .call then some c.machine.pc else none

/-- A return was completed. -/
def returns (c : Completion) : Bool :=
  c.instruction.opcode = .ret

/-- The value that a completed push has put aside. -/
def push? (c : Completion) : Option Value :=
  if c.instruction.opcode = .pushs then (c.instruction.value c.machine.frames 0).toOption else none

/-- A pop was completed. -/
def pops (c : Completion) : Bool :=
  c.instruction.opcode = .pops

/-- Something else than a label was completed. -/
def counts (c : Completion) : Bool :=
  c.instruction.opcode ≠ .label

end Completion

/-- The positions of the calls that have not returned, latest first. -/
def openCalls (past : List Completion) : List Nat :=
  unclosed Completion.call? Completion.returns 0 past

/-- The values that were pushed and not popped, latest first. -/
def putAside (past : List Completion) : List Value :=
  unclosed Completion.push? Completion.pops 0 past

/-- What a dump has to tell after a history, at a position and an order, about some frames. -/
def report (past : List Completion) (frames : Frames) (position : Nat) (order : UInt64) : String :=
  let latest :=
    match past with
    | [] => "none"
    | c :: _ => c.instruction.opcode.mnemonic
  let lines :=
    [s!"BREAK at position {position} (order {order})",
      "last executed: " ++ latest,
      s!"executed instructions: {past.countP Completion.counts}",
      "GF: " ++ frames.globals.dumped,
      frames.dumpedLocals,
      frames.dumpedTemporary,
      "data stack: " ++ dumpedList ((putAside past).reverse.map Value.dumped),
      "call stack: " ++ dumpedList ((openCalls past).reverse.map fun position => toString position)]
  String.join (lines.map fun line => line ++ "\n")

/-- Carrying out an effect counts nothing. -/
theorem CarriedOut.executed_eq {devices : Devices} {m n : Machine} {order : UInt64}
    {effect : Effect} (carried : CarriedOut devices m order effect n) :
    n.executed = m.executed := by
  -- Completion is counted only behind an effect.
  cases carried <;> rfl

namespace Machine

/-- The counters and the stacks of a machine are those that its history leads to. -/
structure FollowsFrom (past : List Completion) (m : Machine) : Prop where
  executed : m.executed = past.countP Completion.counts
  last : m.last = past.head?.map fun c => c.instruction.opcode
  callStack : m.callStack = openCalls past
  dataStack : m.dataStack = putAside past

variable {devices : Devices} {image : Image} {past : List Completion} {m n : Machine}
  {i : Instruction}

/-- A completed instruction changes the call stack as a call, as a return or not at all. -/
theorem restacks_callStack (fetched : image.code[m.pc]? = some i)
    (done : (m.advance devices image).Succeeds n) :
    Restacks Completion.call? Completion.returns ⟨i, m⟩ m.callStack n.callStack := by
  -- The operation says which of the three it is, for it has effects of one kind only.
  obtain ⟨effect, after, reduced, carried, rfl⟩ := advance_succeeds fetched done
  have kind := i.effect_mayHave _ _ _ reduced
  by_cases calls : i.opcode = .call
  · rw [calls] at kind
    cases carried with
    -- Fetching has moved the position past the call, which puts aside its own.
    | call target => apply Restacks.opened <;> simp [Completion.returns, Completion.call?, calls]
    | _ => simp [Opcode.mayHave] at kind
  · by_cases returns : i.opcode = .ret
    · rw [returns] at kind
      cases carried with
      | ret top =>
        rw [show m.callStack = _ from top]
        exact .closed _ _ (by simp [Completion.returns, returns])
      | _ => simp [Opcode.mayHave] at kind
    · -- Every other operation leaves the call stack alone.
      have same := carried.callStack_eq kind calls returns
      rw [show (after.complete i.opcode).callStack = m.callStack from same]
      apply Restacks.kept <;> simp [Completion.returns, Completion.call?, calls, returns]

/-- A completed instruction changes the data stack as a push, as a pop or not at all. -/
theorem restacks_dataStack (fetched : image.code[m.pc]? = some i)
    (done : (m.advance devices image).Succeeds n) :
    Restacks Completion.push? Completion.pops ⟨i, m⟩ m.dataStack n.dataStack := by
  -- As with calls and returns, the operation decides.
  obtain ⟨effect, after, reduced, carried, rfl⟩ := advance_succeeds fetched done
  have kind := i.effect_mayHave _ _ _ reduced
  by_cases pushes : i.opcode = .pushs
  · rw [pushes] at kind
    cases carried with
    | push value =>
      -- What was pushed is what the operand is worth.
      rw [Instruction.effect, pushes] at reduced
      obtain ⟨_, resolved, built⟩ := bind_eq_ok_iff.mp reduced
      cases built
      apply Restacks.opened
      · simp [Completion.pops, pushes]
      · simp [Completion.push?, pushes, resolved, Except.toOption]
    | _ => simp [Opcode.mayHave] at kind
  · by_cases pops : i.opcode = .pops
    · rw [pops] at kind
      cases carried with
      | pop top assigned =>
        rw [show m.dataStack = _ from top]
        exact .closed _ _ (by simp [Completion.pops, pops])
      | _ => simp [Opcode.mayHave] at kind
    · -- Every other operation leaves the data stack alone.
      have same := carried.dataStack_eq kind pushes pops
      rw [show (after.complete i.opcode).dataStack = m.dataStack from same]
      apply Restacks.kept <;> simp [Completion.pops, Completion.push?, pushes, pops]

/-- A machine that completes one more instruction follows from its longer history. -/
theorem FollowsFrom.completed (known : m.FollowsFrom past) (fetched : image.code[m.pc]? = some i)
    (done : (m.advance devices image).Succeeds n) : n.FollowsFrom (⟨i, m⟩ :: past) where
  executed := by
    obtain ⟨effect, after, _, carried, rfl⟩ := advance_succeeds fetched done
    have same := carried.executed_eq
    -- Labels are the only instructions that are completed and not counted.
    rw [List.countP_cons, ← known.executed, ← show after.executed = m.executed from same,
      Machine.complete]
    by_cases label : i.opcode = .label <;> simp [Completion.counts, label]
  last := by
    obtain ⟨effect, after, _, _, rfl⟩ := advance_succeeds fetched done
    rfl
  callStack := (restacks_callStack fetched done).eq_unclosed known.callStack
  dataStack := (restacks_dataStack fetched done).eq_unclosed known.dataStack

/-- A machine that has fetched an instruction dumps the report of its history. -/
theorem FollowsFrom.dump_eq (known : m.FollowsFrom past) (order : UInt64) :
    { m with pc := m.pc + 1 }.dump order = report past m.frames m.pc order := by
  -- Fetching has moved the position, which the first line takes back.
  unfold Machine.dump Machine.lastName report
  dsimp only
  rw [known.executed, known.last, known.callStack, known.dataStack, Nat.add_sub_cancel]
  cases past <;> rfl

/-- A dump is written or refused, and nothing else can become of it. -/
theorem advance_dump (fetched : image.code[m.pc]? = some i) (op : i.opcode = .dump) :
    m.advance devices image =
      match devices.refusal .err (m.console.count .err + 1) with
      | some reason =>
        .fault (.refused reason) { m with pc := m.pc + 1, console := m.console.bump .err }
      | none =>
        .next { m with
          pc := m.pc + 1, executed := m.executed + 1, last := some .dump
          console := m.console.record ⟨.err, { m with pc := m.pc + 1 }.dump i.order⟩ } := by
  -- A dump is never empty, so that the device is always asked.
  have reduced : i.effect image.labels m.frames = .ok .dump := by rw [Instruction.effect, op]
  rw [advance_of_effect fetched reduced, op, Machine.perform,
    write_of_ne_empty (dump_ne_empty _ _)]
  dsimp only
  cases devices.refusal .err (m.console.count .err + 1) <;> rfl

end Machine

namespace Program

variable {p : Program} {input : List UInt8} {image : Image} {devices : Devices}
  {past : List Completion} {m : Machine}

/-- In all its lives, a machine follows from what it has completed. -/
theorem Life.followsFrom {phase : Phase} (alive : p.Life input image phase past m) :
    m.FollowsFrom past := by
  -- Whatever happens in a life keeps it, and a completion adds to both sides.
  apply alive.keeps
  · exact ⟨rfl, rfl, rfl, rfl⟩
  · -- A restart changes the position only.
    intro past m known
    exact ⟨known.executed, known.last, known.callStack, known.dataStack⟩
  · intro devices past m n i known fetched done
    exact known.completed fetched done
  · -- A failing step has moved the position and counted a write at most.
    intro devices past m n fault known failed
    rw [Machine.advance_fault_unchanged failed]
    exact ⟨known.executed, known.last, known.callStack, known.dataStack⟩

/--
A dump tells the truth about any run, in all executions that a machine goes through.

It shows the position of its instruction among the sorted ones and the order of the instruction, the
operation that was completed last, the number of instructions besides labels that were completed
since the machine was new, the values that were pushed and not popped, and the positions of the
calls that have not returned. Apart from what is written, only the position, the number and the last
operation change. A refused dump is no completed instruction.
-/
theorem dumps_tell_truth {i : Instruction} (alive : p.Life input image (.running devices) past m)
    (fetched : image.code[m.pc]? = some i) (op : i.opcode = .dump) :
    p.sorted[m.pc]? = some i ∧
    m.advance devices image =
      match devices.refusal .err (m.console.count .err + 1) with
      | some reason =>
        .fault (.refused reason) { m with pc := m.pc + 1, console := m.console.bump .err }
      | none =>
        .next { m with
          pc := m.pc + 1, executed := m.executed + 1, last := some .dump
          console := m.console.record ⟨.err, report past m.frames m.pc i.order⟩ } := by
  -- The machine follows from its history, and the dump tells what the machine is.
  constructor
  · have code := (link_eq_ok_iff.mp alive.linked).2
    rwa [code, List.getElem?_toArray] at fetched
  · rw [Machine.advance_dump fetched op, alive.followsFrom.dump_eq]

/-- A function that pushes, dumps and returns, and is run into once more by the caller. -/
def dumpingFunction : Program :=
  { instructions := [⟨.call, 1, [.label "f"]⟩, ⟨.label, 2, [.label "f"]⟩,
      ⟨.pushs, 3, [.literal (.int 7)]⟩, ⟨.dump, 4, []⟩, ⟨.ret, 5, []⟩] }

/-- The program with the dumping function, ready to run. -/
def dumpingFunctionImage : Image :=
  { code := dumpingFunction.instructions.toArray, labels := [("f", 1)] }

/-- In the second round two values are on the stack, and the call has returned. -/
theorem dumps_tell_truth_of_dumpingFunction :
    ∃ past m n, dumpingFunction.Life [] dumpingFunctionImage (.running .willing) past m ∧
      m.advance .willing dumpingFunctionImage = .next n ∧
      n.console.written.head? = some ⟨.err,
        "BREAK at position 3 (order 4)\nlast executed: PUSHS\nexecuted instructions: 5\n" ++
        "GF: \x7b\x7d\nLF: undefined\nTF: undefined\n" ++
        "data stack: [int@7, int@7]\ncall stack: []\n"⟩ := by
  let image := dumpingFunctionImage
  have sorted : dumpingFunction.sorted = dumpingFunction.instructions :=
    List.mergeSort_of_pairwise (by decide)
  have linked : dumpingFunction.link = .ok image := by
    rw [link_eq_ok_iff, sorted]
    exact ⟨rfl, rfl⟩
  have begun : dumpingFunction.start (.fresh []) = .ok (image, .fresh []) :=
    start_eq_ok_iff.mpr ⟨linked, rfl⟩
  -- The first round, from the call to the return.
  have called := (Life.started .willing .fresh begun).stepped rfl rfl
  have entered := called.stepped rfl rfl
  have pushed := entered.stepped rfl rfl
  have dumped := pushed.stepped rfl rfl
  have returned := dumped.stepped rfl rfl
  -- The second round, without a call.
  have passed := returned.stepped rfl rfl
  have alive := passed.stepped rfl rfl
  obtain ⟨_, told⟩ := dumps_tell_truth alive rfl rfl
  refine ⟨_, _, _, alive, told, ?_⟩
  decide +kernel

end Program

end ThreeAddress
