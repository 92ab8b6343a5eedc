import Mathlib.Algebra.Ring.Nat
import ThreeAddress.Proofs.Machine.Control

/-!
Programs without backward jumps. Returning goes back, so that a position says little about how long
a run can be; but each call pays in advance for what happens after its return.
-/

namespace ThreeAddress

/-- Every label that a jump of an image names is defined behind the jump. -/
def Image.JumpsForward (image : Image) : Prop :=
  ∀ position i name target, image.code[position]? = some i → i.opcode.isJump = true →
    i.operands.head? = some (.label name) → image.LabelAt name target → position < target

/-- The number of steps that are enough from a position on until the call of that code returns. -/
def Image.budget (image : Image) (position : Nat) : Nat :=
  2 ^ (image.code.size + 1 - position) - 1

namespace Image

variable {image : Image} {position : Nat}

/-- What is enough for an instruction is enough for two runs of all the code behind it. -/
theorem budget_eq (small : position < image.code.size) :
    image.budget position = 2 * image.budget (position + 1) + 1 := by
  -- One position less doubles the power, and one step is for the instruction itself.
  unfold budget
  rw [show image.code.size + 1 - position = (image.code.size + 1 - (position + 1)) + 1 by omega,
    Nat.pow_succ]
  have positive := Nat.two_pow_pos (image.code.size + 1 - (position + 1))
  omega

/-- What is enough from a position on is enough from a later one. -/
theorem budget_anti {later : Nat} (behind : position ≤ later) :
    image.budget later ≤ image.budget position := by
  -- Powers of two grow with their exponents, which count the instructions ahead.
  unfold budget
  have grows : 2 ^ (image.code.size + 1 - later) ≤ 2 ^ (image.code.size + 1 - position) :=
    Nat.pow_le_pow_right (by decide) (by omega)
  omega

/-- What is enough for a whole image is enough from everywhere. -/
theorem budget_lt : image.budget position < 2 ^ (image.code.size + 1) := by
  -- No position has more instructions ahead than there are.
  have most : 2 ^ (image.code.size + 1 - position) ≤ 2 ^ (image.code.size + 1) :=
    Nat.pow_le_pow_right (by decide) (Nat.sub_le _ _)
  have positive := Nat.two_pow_pos (image.code.size + 1 - position)
  unfold budget
  omega

end Image

namespace Machine

/-- The number of steps that are enough for a machine until all calls of its stack have returned. -/
def budget (image : Image) (m : Machine) : Nat :=
  image.budget m.pc + (m.callStack.map fun position => image.budget (position + 1)).sum

/-- The ways in which the next step of a machine ends a run, with what an execution makes of it. -/
inductive StopsWith (devices : Devices) (image : Image) (m : Machine) : Ending → Prop where
  | offEnd (behind : image.code[m.pc]? = none) :
      StopsWith devices image m ⟨devices.conclude (.ok 0), m⟩
  | exits {i : Instruction} {code : Nat} {n : Machine} (fetched : image.code[m.pc]? = some i)
      (op : i.opcode = .exit) (left : m.advance devices image = .exit code n) :
      StopsWith devices image m ⟨devices.conclude (.ok code), n⟩
  | fails {fault : Fault} {n : Machine} (failed : m.advance devices image = .fault fault n) :
      StopsWith devices image m ⟨.error fault, n⟩

variable {p : Program} {image : Image} {devices : Devices} {m n : Machine}

/-- The budget of a machine is in proportion to the number of its calls. -/
theorem budget_lt (image : Image) (m : Machine) :
    m.budget image < (m.callStack.length + 1) * 2 ^ (image.code.size + 1) := by
  -- Neither the position nor any call can have more than the whole image.
  unfold budget
  induction m.callStack with
  | nil => simpa using Image.budget_lt
  | cons position rest ih =>
    have call : image.budget (position + 1) < 2 ^ (image.code.size + 1) := Image.budget_lt
    rw [List.map_cons, List.sum_cons, List.length_cons, Nat.succ_mul]
    omega

/-- Where jumps go forward, every step takes something from the budget. -/
theorem advance_budget (linked : p.link = .ok image) (forward : image.JumpsForward)
    (next : m.advance devices image = .next n) : n.budget image < m.budget image := by
  obtain ⟨i, fetched⟩ := advance_next_fetched next
  obtain ⟨effect, after, reduced, carried, rfl⟩ := advance_next fetched next
  have kind := i.effect_mayHave _ _ _ reduced
  have halves := Image.budget_eq (Image.lt_size_of_found fetched)
  -- A target is behind the instruction, and no more steps are left there than right behind it.
  have ahead {target : Nat} (jumps : i.opcode.isJump = true)
      (goes : effect.target? = some target) :
      image.budget target ≤ image.budget (m.pc + 1) := by
    obtain ⟨name, first, defined⟩ :=
      Program.link_target linked (Instruction.effect_target reduced goes)
    exact Image.budget_anti (forward m.pc i name target fetched jumps first defined)
  unfold budget
  cases carried with
  | call target =>
    -- Half of what the call had is for the code it calls, and half for the return.
    have called := ahead (by rw [Opcode.mayHave_call.mp kind]; rfl) rfl
    simp only [Machine.complete, Nat.add_sub_cancel, List.map_cons, List.sum_cons]
    omega
  | ret top =>
    -- What happens behind the call was paid for when it was made.
    simp only at top
    simp only [Machine.complete, top, List.map_cons, List.sum_cons]
    omega
  | jump target =>
    have jumped := ahead (by
      rcases Opcode.mayHave_jump.mp kind with op | op | op <;> rw [op] <;> rfl) rfl
    simp only [Machine.complete]
    omega
  | skip | createFrame | pushFrame | popFrame | declare | assign | receive | push | pop | write
  | dump | exit =>
    simp only [Machine.complete]
    omega

/-- A run in which each step takes something from a weight comes to a step that ends it. -/
theorem run_stops {weight : Machine → Nat}
    (step : ∀ a b, a.advance devices image = .next b → weight b < weight a) (m : Machine) :
    ∃ steps last, steps ≤ weight m ∧ m.run devices image steps = .next last ∧
      ∀ n, last.advance devices image ≠ .next n := by
  -- The induction is on the weight, which the first step makes smaller.
  induction bound : weight m using Nat.strongRecOn generalizing m with
  | ind bound ih =>
    cases stepped : m.advance devices image with
    | next second =>
      have lighter := step m second stepped
      obtain ⟨steps, last, few, ran, stopped⟩ := ih _ (by omega) second rfl
      refine ⟨steps + 1, last, by omega, ?_, stopped⟩
      rw [Machine.run, stepped]
      exact ran
    | exit code after => exact ⟨0, m, Nat.zero_le _, rfl, by simp [stepped]⟩
    | fault fault after => exact ⟨0, m, Nat.zero_le _, rfl, by simp [stepped]⟩

/-- A run that comes to a step that ends it ends with that step, however long it may be. -/
theorem run_of_stopped {steps fuel : Nat} {last : Machine}
    (ran : m.run devices image steps = .next last)
    (stopped : ∀ n, last.advance devices image ≠ .next n) (enough : steps < fuel) :
    m.run devices image fuel = last.advance devices image := by
  -- Once the last step is made, more fuel finds nothing to go on with.
  induction fuel with
  | zero => exact absurd enough (Nat.not_lt_zero steps)
  | succ fuel ih =>
    rw [run_succ]
    rcases Nat.lt_succ_iff_lt_or_eq.mp enough with earlier | rfl
    · -- The run has ended before.
      rw [ih earlier]
      cases stepped : last.advance devices image with
      | next n => exact absurd stepped (stopped n)
      | exit code n => rfl
      | fault fault n => rfl
    · rw [ran]

private theorem perform_exit {order : UInt64} {effect : Effect} {code : Nat}
    (left : m.perform devices order effect = .exit code n) : effect = .exit code := by
  -- No effect but an exit ends a run well.
  have frames (result : Except FrameError Frames) (a : Machine) :
      a.setFrames order result ≠ .exit code n := by
    cases result <;> nofun
  have writes (stream : Stream) (text : String) : m.write devices stream text ≠ .exit code n := by
    unfold Machine.write
    split <;> nofun
  cases effect with
  | exit status =>
    cases left
    rfl
  | skip | createFrame | push | call | jump => cases left
  | pushFrame | popFrame | declare | assign => exact absurd left (frames _ _)
  | receive x t =>
    simp only [Machine.perform, Machine.receive] at left
    split at left
    · cases left
    · exact absurd left (frames _ _)
  | pop x =>
    simp only [Machine.perform, Machine.popInto] at left
    split at left
    · cases left
    · split at left
      · cases left
      · exact absurd left (frames _ _)
  | ret =>
    simp only [Machine.perform, Machine.backToCaller] at left
    split at left <;> cases left
  | write => exact absurd left (writes _ _)
  | dump => exact absurd left (writes _ _)

/-- A run that ends well has come to the end of the image or to an exit. -/
theorem advance_exit {code : Nat} (left : m.advance devices image = .exit code n) :
    (image.code[m.pc]? = none ∧ code = 0 ∧ n = m) ∨
      ∃ i, image.code[m.pc]? = some i ∧ i.opcode = .exit := by
  -- An instruction that ends a run well has the effect of an exit, and so the operation.
  unfold Machine.advance at left
  split at left
  · rename_i behind
    cases left
    exact .inl ⟨behind, rfl, rfl⟩
  · rename_i i fetched
    refine .inr ⟨i, fetched, ?_⟩
    unfold Machine.step at left
    split at left
    · cases left
    · rename_i effect reduced
      have kind := i.effect_mayHave _ _ _ reduced
      cases performed : perform devices { m with pc := m.pc + 1 } i.order effect with
      | exit status after =>
        rw [perform_exit performed] at kind
        exact Opcode.mayHave_exit.mp kind
      | next after =>
        rw [performed] at left
        cases left
      | fault fault after =>
        rw [performed] at left
        cases left

/-- A step after which a run does not go on ends it in one of three ways. -/
theorem stopsWith_of_stopped (stopped : ∀ n, m.advance devices image ≠ .next n) :
    ∃ ending, Program.ending devices (m.advance devices image) = some ending ∧
      m.StopsWith devices image ending := by
  -- The outcome is not one that goes on, so it is the end of the image, an exit or a fault.
  cases stepped : m.advance devices image with
  | next n => exact absurd stepped (stopped n)
  | exit code n =>
    refine ⟨_, rfl, ?_⟩
    rcases advance_exit stepped with ⟨behind, rfl, rfl⟩ | ⟨i, fetched, op⟩
    · exact .offEnd behind
    · exact .exits fetched op stepped
  | fault fault n => exact ⟨_, rfl, .fails stepped⟩

end Machine

namespace Program

variable {p : Program} {image : Image}

/--
A program whose jumps all go forward always ends, whatever it reads and however often it returns.

It does so on every machine, also on one on which earlier executions have left calls that never
returned. The number of steps is bounded by the number of these calls, of which a fresh machine has
none, and by the length of the program. The last step is taken behind the last instruction, or is an
exit, or fails; and from then on the execution has the same ending for any number of steps.
-/
theorem forward_jumps_always_end (linked : p.link = .ok image) (forward : image.JumpsForward)
    (devices : Devices) (m : Machine) :
    ∃ steps last ending,
      steps < (m.callStack.length + 1) * 2 ^ (p.instructions.length + 1) ∧
      Machine.run devices image steps { m with pc := 0 } = .next last ∧
      last.StopsWith devices image ending ∧
      ∀ fuel, steps < fuel → p.execute devices fuel m = some ending := by
  -- The budget is spent step by step, and at the end nothing is left to go on with.
  obtain ⟨steps, last, few, ran, stopped⟩ :=
    Machine.run_stops (fun a b => Machine.advance_budget linked forward) { m with pc := 0 }
  obtain ⟨ending, same, stops⟩ := Machine.stopsWith_of_stopped stopped
  refine ⟨steps, last, ending, ?_, ran, stops, ?_⟩
  · have bound := Machine.budget_lt image { m with pc := 0 }
    rw [link_size linked] at bound
    exact Nat.lt_of_le_of_lt few bound
  · intro fuel enough
    rw [execute, start_eq_ok_iff.mpr ⟨linked, rfl⟩]
    dsimp only
    rw [Machine.run_of_stopped ran stopped enough, same]

/-- A program that calls a function, comes back to jump behind it, and ends there. -/
def forwardCall : Program :=
  { instructions := [⟨.call, 1, [.label "f"]⟩, ⟨.jump, 2, [.label "end"]⟩,
      ⟨.label, 3, [.label "f"]⟩, ⟨.ret, 4, []⟩, ⟨.label, 5, [.label "end"]⟩] }

/-- The program that calls a function and jumps behind it, ready to run. -/
def forwardCallImage : Image :=
  { code := forwardCall.instructions.toArray, labels := [("end", 4), ("f", 2)] }

/-- A function that returns to code before itself ends all the same. -/
theorem forward_jumps_always_end_of_forwardCall :
    forwardCall.link = .ok forwardCallImage ∧ forwardCallImage.JumpsForward ∧
    ∃ steps last ending, steps < 64 ∧
      Machine.run .willing forwardCallImage steps (.fresh []) = .next last ∧
      last.StopsWith .willing forwardCallImage ending ∧
      ∀ fuel, steps < fuel → forwardCall.execute .willing fuel (.fresh []) = some ending := by
  have sorted : forwardCall.sorted = forwardCall.instructions :=
    List.mergeSort_of_pairwise (by decide)
  have linked : forwardCall.link = .ok forwardCallImage := by
    rw [link_eq_ok_iff, sorted]
    exact ⟨rfl, rfl⟩
  have forward : forwardCallImage.JumpsForward := by
    intro position i name target found jumps first defined
    have known := (link_labelAt linked name target).mpr defined
    -- Two of the five instructions jump, each to a label further down.
    rcases position with _ | _ | _ | _ | _ | position <;> cases found
    case zero =>
      obtain rfl : "f" = name := by simpa [forwardCallImage, forwardCall] using first
      obtain rfl : 2 = target := Option.some.inj known
      decide
    case succ.zero =>
      obtain rfl : "end" = name := by simpa [forwardCallImage, forwardCall] using first
      obtain rfl : 4 = target := Option.some.inj known
      decide
    all_goals cases jumps
  exact ⟨linked, forward, forward_jumps_always_end linked forward .willing (.fresh [])⟩

end Program

end ThreeAddress
