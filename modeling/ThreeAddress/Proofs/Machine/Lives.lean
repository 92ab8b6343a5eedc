import ThreeAddress.Machine.Execution
import ThreeAddress.Proofs.Machine.Writes
import ThreeAddress.Proofs.Result

/-!
The life of a machine: a program is executed on it again and again, and each execution takes up
what the earlier ones left behind.
-/

namespace ThreeAddress

/-- Finishing the streams passes on faults that are reworded, if no refusal is. -/
theorem Devices.conclude_mapError {reword : Fault → Fault}
    (kept : ∀ reason, reword (.refused reason) = .refused reason) (devices : Devices)
    (result : Except Fault Nat) :
    devices.conclude (result.mapError reword) = (devices.conclude result).mapError reword := by
  cases result with
  | error fault => rfl
  | ok code =>
    -- A status can only be replaced by a refusal.
    change devices.conclude (.ok code) = (devices.conclude (.ok code)).mapError reword
    unfold Devices.conclude
    cases devices.flush with
    | none => rfl
    | some reason => exact congrArg Except.error (kept reason).symm

namespace Machine

variable {devices : Devices} {image : Image} {m : Machine}

/-- A run of one step more takes that step at the end, unless it has ended before. -/
theorem run_succ (fuel : Nat) :
    m.run devices image (fuel + 1) =
      match m.run devices image fuel with
      | .next last => last.advance devices image
      | ended => ended := by
  -- Steps are taken off the front of a run, so the induction is on where the first one leads.
  induction fuel generalizing m with
  | zero =>
    rw [Machine.run]
    cases stepped : m.advance devices image <;> simp [Machine.run, stepped]
  | succ fuel ih =>
    rw [Machine.run, Machine.run]
    cases stepped : m.advance devices image with
    | next second => exact ih
    | exit code after => rfl
    | fault fault after => rfl

/-- A run takes one step more than another run that goes on. -/
theorem run_succ_eq_next_iff {fuel : Nat} {n : Machine} :
    m.run devices image (fuel + 1) = .next n ↔
      ∃ last, m.run devices image fuel = .next last ∧ last.advance devices image = .next n := by
  -- What has ended does not go on.
  rw [run_succ]
  cases ran : m.run devices image fuel <;> simp

/-- What every step keeps is kept by a run, and holds before the last step of a run that ends. -/
theorem run_keeps {kept : Machine → Prop}
    (step : ∀ a b, kept a → a.advance devices image = .next b → kept b) (fuel : Nat)
    (first : kept m) :
    (∃ n, m.run devices image fuel = .next n ∧ kept n) ∨
      ∃ last, kept last ∧ m.run devices image fuel = last.advance devices image := by
  -- A run that goes on after its first step is as good as one that begins there.
  induction fuel generalizing m with
  | zero => exact .inl ⟨m, rfl, first⟩
  | succ fuel ih =>
    rw [Machine.run]
    split
    · rename_i n stepped
      exact ih (step m n first stepped)
    · exact .inr ⟨m, first, rfl⟩

end Machine

namespace Program

variable {p : Program}

/-- Starting a program links it and puts the machine at the first instruction. -/
theorem start_eq_ok_iff {m started : Machine} {image : Image} :
    p.start m = .ok (image, started) ↔ p.link = .ok image ∧ started = { m with pc := 0 } := by
  -- Linking is all that can fail, and only the position changes.
  unfold Program.start
  rw [bind_eq_ok_iff]
  constructor
  · rintro ⟨linked, same, built⟩
    cases built
    exact ⟨same, rfl⟩
  · rintro ⟨linked, rfl⟩
    exact ⟨image, linked, rfl⟩

/-- An execution of a program that links leaves the machine as its run does. -/
theorem execute_machine {devices : Devices} {fuel : Nat} {m : Machine} {image : Image}
    {ending : Ending} (linked : p.link = .ok image)
    (ended : p.execute devices fuel m = some ending) :
    ending.machine = (Machine.run devices image fuel { m with pc := 0 }).machine := by
  -- Finishing the streams decides about the result only.
  unfold Program.execute at ended
  rw [start_eq_ok_iff.mpr ⟨linked, rfl⟩] at ended
  dsimp only at ended
  generalize Machine.run devices image fuel { m with pc := 0 } = outcome at ended ⊢
  cases outcome with
  | next n => cases ended
  | exit code n =>
    cases ended
    rfl
  | fault fault n =>
    cases ended
    rfl

/-- What an execution has come to after some steps, before its streams are finished. -/
def outcome (devices : Devices) (fuel : Nat) (p : Program) (m : Machine) : Outcome :=
  match p.start m with
  | .error fault => .fault fault m
  | .ok (image, started) => started.run devices image fuel

/-- An execution ends as its outcome says. -/
theorem execute_eq_ending {devices : Devices} {fuel : Nat} {m : Machine} :
    p.execute devices fuel m = ending devices (p.outcome devices fuel m) := by
  -- Either linking fails and that is the ending, or the run is concluded.
  unfold execute outcome
  cases p.start m <;> rfl

/-- On a new machine, a program that links is run at once. -/
theorem outcome_of_link {devices : Devices} {fuel : Nat} {image : Image}
    (linked : p.link = .ok image) (input : List UInt8) :
    p.outcome devices fuel (.fresh input) = (Machine.fresh input).run devices image fuel := by
  -- The machine is at the first position already.
  rw [outcome, start_eq_ok_iff.mpr ⟨linked, rfl⟩]
  rfl

/-- The machines that executions of a program leave behind one after another, however they end. -/
inductive LeftBehind (p : Program) (input : List UInt8) : Machine → Prop where
  | fresh : LeftBehind p input (.fresh input)
  | executed {devices : Devices} {fuel : Nat} {m : Machine} {ending : Ending}
      (earlier : LeftBehind p input m) (ended : p.execute devices fuel m = some ending) :
      LeftBehind p input ending.machine

/-- The machines that are about to fetch in an execution that follows any number of others. -/
inductive AboutToFetch (p : Program) (input : List UInt8) (devices : Devices) (image : Image) :
    Machine → Prop where
  | started {m started : Machine} (earlier : p.LeftBehind input m)
      (begun : p.start m = .ok (image, started)) : AboutToFetch p input devices image started
  | stepped {m n : Machine} (running : AboutToFetch p input devices image m)
      (next : m.advance devices image = .next n) : AboutToFetch p input devices image n

variable {input : List UInt8} {image : Image} {kept : Machine → Prop}

/--
What holds of a new machine, and survives a restart and every step, holds throughout its life.

This is the induction behind every invariant of repeated executions.
-/
theorem LeftBehind.keeps (linked : p.link = .ok image) (fresh : kept (.fresh input))
    (restart : ∀ m : Machine, kept m → kept { m with pc := 0 })
    (step : ∀ devices (m : Machine), kept m → kept (m.advance devices image).machine)
    {m : Machine} (h : p.LeftBehind input m) : kept m := by
  induction h with
  | fresh => exact fresh
  | @executed devices fuel m ending earlier ended ih =>
    rw [execute_machine linked ended]
    -- The run goes on from a machine where it holds, or its last step began at one.
    have next : ∀ a b, kept a → a.advance devices image = .next b → kept b := by
      intro a b held stepped
      have after := step devices a held
      rwa [stepped] at after
    rcases Machine.run_keeps next fuel (restart m ih) with ⟨n, ran, held⟩ | ⟨last, held, ran⟩
    · rw [ran]
      exact held
    · rw [ran]
      exact step devices last held

/-- What holds of a new machine, and survives a restart and every step, holds at every fetch. -/
theorem AboutToFetch.keeps (fresh : kept (.fresh input))
    (restart : ∀ m : Machine, kept m → kept { m with pc := 0 })
    (step : ∀ devices (m : Machine), kept m → kept (m.advance devices image).machine)
    {devices : Devices} {m : Machine} (h : p.AboutToFetch input devices image m) : kept m := by
  -- The execution began with a restart of what earlier ones left behind.
  induction h with
  | started earlier begun =>
    obtain ⟨linked, rfl⟩ := start_eq_ok_iff.mp begun
    exact restart _ (earlier.keeps linked fresh restart step)
  | stepped running next ih =>
    have after := step devices _ ih
    rwa [next] at after

end Program

end ThreeAddress
