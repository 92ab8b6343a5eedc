import ThreeAddress.Proofs.Machine.Lives
import ThreeAddress.Proofs.Machine.Successes

/-!
The history of a machine. A life that is told step by step lists the instructions that the machine
has completed since it was new, in however many executions.
-/

namespace ThreeAddress

/-- An instruction that was completed, and the machine that was about to fetch it then. -/
structure Completion where
  instruction : Instruction
  machine : Machine

/-- Where a machine is in its life: between two executions, or in one with the given devices. -/
inductive Phase where
  | resting
  | running (devices : Devices)

/-- The phase of a life that a run has come to. -/
def Outcome.phase (devices : Devices) : Outcome → Phase
  | next _ => .running devices
  | exit _ _ | fault _ _ => .resting

namespace Program

/--
The lives of a machine, with what it has completed so far, latest first.

An execution ends where an instruction exits or fails, or behind the last one. The next execution
may have other devices. A program that does not link is never started.
-/
inductive Life (p : Program) (input : List UInt8) (image : Image) :
    Phase → List Completion → Machine → Prop where
  | fresh : Life p input image .resting [] (.fresh input)
  | started {past : List Completion} {m n : Machine} (devices : Devices)
      (earlier : Life p input image .resting past m) (begun : p.start m = .ok (image, n)) :
      Life p input image (.running devices) past n
  | stepped {devices : Devices} {past : List Completion} {m n : Machine} {i : Instruction}
      (earlier : Life p input image (.running devices) past m)
      (fetched : image.code[m.pc]? = some i) (next : m.advance devices image = .next n) :
      Life p input image (.running devices) (⟨i, m⟩ :: past) n
  | exited {devices : Devices} {past : List Completion} {m n : Machine} {i : Instruction}
      {code : Nat} (earlier : Life p input image (.running devices) past m)
      (fetched : image.code[m.pc]? = some i) (ended : m.advance devices image = .exit code n) :
      Life p input image .resting (⟨i, m⟩ :: past) n
  | failed {devices : Devices} {past : List Completion} {m n : Machine} {fault : Fault}
      (earlier : Life p input image (.running devices) past m)
      (ended : m.advance devices image = .fault fault n) : Life p input image .resting past n
  | finished {devices : Devices} {past : List Completion} {m : Machine}
      (earlier : Life p input image (.running devices) past m)
      (behind : image.code[m.pc]? = none) : Life p input image .resting past m

variable {p : Program} {input : List UInt8} {image : Image} {devices : Devices}
  {past : List Completion} {m n : Machine}

/--
What holds of a new machine and survives restarts, completions and failures holds all its life.

A completion is added to the history, and a failure is not.
-/
theorem Life.keeps {kept : List Completion → Machine → Prop} (fresh : kept [] (.fresh input))
    (restart : ∀ past (m : Machine), kept past m → kept past { m with pc := 0 })
    (completed : ∀ devices past (m n : Machine) i, kept past m → image.code[m.pc]? = some i →
      (m.advance devices image).Succeeds n → kept (⟨i, m⟩ :: past) n)
    (failed : ∀ devices past (m n : Machine) fault, kept past m →
      m.advance devices image = .fault fault n → kept past n)
    {phase : Phase} (h : p.Life input image phase past m) : kept past m := by
  -- Each way for a life to go on is one of the four cases, but for the end behind the program.
  induction h with
  | fresh => exact fresh
  | @started past m n devices earlier begun ih =>
    obtain ⟨_, rfl⟩ := start_eq_ok_iff.mp begun
    exact restart past m ih
  | stepped earlier fetched next ih =>
    exact completed _ _ _ _ _ ih fetched (by rw [next]; exact .next _)
  | exited earlier fetched ended ih =>
    exact completed _ _ _ _ _ ih fetched (by rw [ended]; exact .exit _ _)
  | failed earlier ended ih => exact failed _ _ _ _ _ ih ended
  | finished earlier behind ih => exact ih

/-- A run carries on the life of the machine that it begins with. -/
theorem Life.run (alive : p.Life input image (.running devices) past m) (fuel : Nat) :
    ∃ past, p.Life input image ((m.run devices image fuel).phase devices) past
      (m.run devices image fuel).machine := by
  -- The first step belongs to the life, and the induction goes on from where it leads.
  induction fuel generalizing past m with
  | zero => exact ⟨past, alive⟩
  | succ fuel ih =>
    rw [Machine.run]
    cases stepped : m.advance devices image with
    | next n =>
      obtain ⟨i, fetched⟩ := Machine.advance_next_fetched stepped
      exact ih (.stepped alive fetched stepped)
    | fault fault n => exact ⟨past, .failed alive stepped⟩
    | exit code n =>
      cases fetched : image.code[m.pc]? with
      | none =>
        -- Behind the last instruction nothing is completed.
        rw [Machine.advance, fetched] at stepped
        cases stepped
        exact ⟨past, .finished alive fetched⟩
      | some i => exact ⟨_, .exited alive fetched stepped⟩

/-- The machines of a phase, as whole executions and runs lead to them. -/
private def Reached (p : Program) (input : List UInt8) (image : Image) (m : Machine) : Phase → Prop
  | .resting => p.LeftBehind input m
  | .running devices => ∃ earlier fuel, p.LeftBehind input earlier ∧ p.link = .ok image ∧
      Machine.run devices image fuel { earlier with pc := 0 } = .next m

private theorem Reached.ended (h : p.Reached input image m (.running devices)) {outcome : Outcome}
    (ended : m.advance devices image = outcome) (final : ∀ n, outcome ≠ .next n) :
    p.LeftBehind input outcome.machine := by
  obtain ⟨earlier, fuel, left, linked, ran⟩ := h
  -- With this step, the execution that the machine was in has come to its end.
  have whole : p.execute devices (fuel + 1) earlier = ending devices outcome := by
    rw [execute, start_eq_ok_iff.mpr ⟨linked, rfl⟩]
    dsimp only
    rw [Machine.run_succ, ran]
    exact congrArg _ ended
  cases outcome with
  | next n => exact absurd rfl (final n)
  | exit code n => exact .executed left whole
  | fault fault n => exact .executed left whole

private theorem Life.reached {phase : Phase} (h : p.Life input image phase past m) :
    p.Reached input image m phase := by
  induction h with
  | fresh => exact .fresh
  | @started past m n devices earlier begun ih =>
    obtain ⟨linked, rfl⟩ := start_eq_ok_iff.mp begun
    exact ⟨m, 0, ih, linked, rfl⟩
  | @stepped devices past m n i earlier fetched next ih =>
    obtain ⟨first, fuel, left, linked, ran⟩ := ih
    exact ⟨first, fuel + 1, left, linked, Machine.run_succ_eq_next_iff.mpr ⟨m, ran, next⟩⟩
  | exited earlier fetched ended ih =>
    apply ih.ended ended
    intro n goesOn
    cases goesOn
  | failed earlier ended ih =>
    apply ih.ended ended
    intro n goesOn
    cases goesOn
  | @finished devices past m earlier behind ih =>
    -- The step that finds nothing to fetch leaves the machine as it is.
    have ended : m.advance devices image = .exit 0 m := by rw [Machine.advance, behind]
    apply ih.ended ended
    intro n goesOn
    cases goesOn

/-- A program that is running has been linked. -/
theorem Life.linked (h : p.Life input image (.running devices) past m) : p.link = .ok image := by
  -- A run is reached by an execution that was started, which linked the program.
  obtain ⟨_, _, _, linked, _⟩ := h.reached
  exact linked

/-- A machine that a run from the start of an execution leads to is about to fetch in it. -/
theorem AboutToFetch.of_run {fuel : Nat} (left : p.LeftBehind input m) (linked : p.link = .ok image)
    (ran : Machine.run devices image fuel { m with pc := 0 } = .next n) :
    p.AboutToFetch input devices image n := by
  -- Each step of the run leads from one such machine to the next.
  induction fuel generalizing n with
  | zero =>
    cases ran
    exact .started left (start_eq_ok_iff.mpr ⟨linked, rfl⟩)
  | succ fuel ih =>
    obtain ⟨last, ran, next⟩ := Machine.run_succ_eq_next_iff.mp ran
    exact .stepped (ih ran) next

/-- What executions leave behind one after another are the machines of lives between them. -/
theorem leftBehind_iff_life (linked : p.link = .ok image) :
    p.LeftBehind input m ↔ ∃ past, p.Life input image .resting past m := by
  constructor
  · intro left
    induction left with
    | fresh => exact ⟨[], .fresh⟩
    | @executed devices fuel m ending earlier ended ih =>
      obtain ⟨past, alive⟩ := ih
      have begun : p.start m = .ok (image, { m with pc := 0 }) := start_eq_ok_iff.mpr ⟨linked, rfl⟩
      obtain ⟨later, alive⟩ := (Life.started devices alive begun).run fuel
      rw [execute_machine linked ended]
      -- The execution has ended, and so its run does not go on.
      rw [execute, begun] at ended
      cases ran : Machine.run devices image fuel { m with pc := 0 } with
      | next n =>
        dsimp only at ended
        rw [ran] at ended
        cases ended
      | exit code n =>
        rw [ran] at alive
        exact ⟨later, alive⟩
      | fault fault n =>
        rw [ran] at alive
        exact ⟨later, alive⟩
  · rintro ⟨past, alive⟩
    exact alive.reached

/-- The machines that are about to fetch in an execution are those of lives that are running. -/
theorem aboutToFetch_iff_life :
    p.AboutToFetch input devices image m ↔
      ∃ past, p.Life input image (.running devices) past m := by
  -- A life remembers what it completed, and what is about to fetch does not.
  constructor
  · intro fetching
    induction fetching with
    | started earlier begun =>
      have linked := (start_eq_ok_iff.mp begun).1
      obtain ⟨past, alive⟩ := (leftBehind_iff_life linked).mp earlier
      exact ⟨past, .started devices alive begun⟩
    | stepped running next ih =>
      obtain ⟨past, alive⟩ := ih
      obtain ⟨i, fetched⟩ := Machine.advance_next_fetched next
      exact ⟨_, .stepped alive fetched next⟩
  · rintro ⟨past, alive⟩
    obtain ⟨earlier, fuel, left, linked, ran⟩ := alive.reached
    exact .of_run left linked ran

end Program

end ThreeAddress
