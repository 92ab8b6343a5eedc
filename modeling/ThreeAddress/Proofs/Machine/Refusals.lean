import ThreeAddress.Proofs.Machine.Messages
import ThreeAddress.Proofs.Machine.Termination

/-!
Streams that fail. A run on devices that refuse a write is the run on willing devices up to this
write and ends there, and a stream that cannot be finished has a say in nothing but the result.
-/

namespace ThreeAddress

/-- Devices that refuse one write to a stream, no earlier one, and none to any other stream. -/
structure Devices.Refuses (devices : Devices) (stream : Stream) (number : Nat) (reason : String) :
    Prop where
  refused : devices.refusal stream number = some reason
  earlier : ∀ count < number, devices.refusal stream count = none
  other : ∀ another, another ≠ stream → ∀ count, devices.refusal another count = none

/-- The same devices, but for their streams, which can be finished. -/
def Devices.finishing (devices : Devices) : Devices :=
  { devices with flushRefusal := fun _ => none }

namespace Devices

variable {devices : Devices}

/-- Streams that can be finished leave every result as it is. -/
theorem conclude_of_finished (fine : ∀ stream, devices.flushRefusal stream = none)
    (result : Except Fault Nat) : devices.conclude result = result := by
  -- A failure is kept in any case, and a success is kept since both streams finish.
  cases result with
  | error fault => rfl
  | ok code => simp [conclude, flush, fine]

/-- A stream that cannot be finished replaces success, and results are finished first. -/
theorem conclude_of_refused {stream : Stream} {reason : String}
    (refused : devices.flushRefusal stream = some reason)
    (first : stream = .err → devices.flushRefusal .out = none) (code : Nat) :
    devices.conclude (.ok code) = .error (.refused reason) := by
  -- The stream of results comes first, and only the first refusal is told.
  cases stream with
  | out => simp [conclude, flush, refused]
  | err => simp [conclude, flush, refused, first]

end Devices

namespace Console

/-- The number of writes to a stream that were taken. -/
def taken (c : Console) (stream : Stream) : Nat :=
  c.written.countP fun w => w.stream = stream

/-- A console is unrefused if every write that it has seen was taken. -/
def Unrefused (c : Console) : Prop :=
  ∀ stream, c.count stream = c.taken stream

variable {c : Console} {w : Write} {stream : Stream}

/-- A write is taken once, on its own stream. -/
theorem taken_record :
    (c.record w).taken stream = c.taken stream + if w.stream = stream then 1 else 0 := by
  -- The write stands in front of the others, and it is counted if it is on the stream.
  simp [taken, record, List.countP_cons]

/-- A write is seen once, on its own stream. -/
theorem count_record :
    (c.record w).count stream = c.count stream + if w.stream = stream then 1 else 0 := by
  -- Only the counter of the stream that is written to goes up.
  obtain ⟨on, text⟩ := w
  cases on <;> cases stream <;> rfl

/-- A console stays unrefused as it takes a write. -/
theorem Unrefused.record (h : c.Unrefused) (w : Write) : (c.record w).Unrefused := by
  -- Writes and seen writes go up together.
  intro stream
  rw [count_record, taken_record, h stream]

end Console

namespace Machine

variable {devices others : Devices} {image : Image} {m n : Machine}

/-- Devices that answer alike about what the next step writes let it have one outcome. -/
theorem advance_congr (same : ∀ message, m.message? image = some message →
      devices.refusal message.write.stream (m.console.count message.write.stream + 1) =
        others.refusal message.write.stream (m.console.count message.write.stream + 1)) :
    m.advance devices image = m.advance others image := by
  -- Nothing but a message ever comes to a device.
  cases writes : m.message? image with
  | none => rw [(advance_of_quiet devices writes).1, ← (advance_of_quiet others writes).1]
  | some message =>
    obtain ⟨n, _, outcome⟩ := advance_of_message writes
    rw [outcome, outcome, same message writes]

/-- What was written is never taken back by a run. -/
theorem run_written (devices : Devices) (image : Image) (m : Machine) {steps fuel : Nat}
    (few : steps ≤ fuel) :
    (m.run devices image steps).machine.console.written <:+
      (m.run devices image fuel).machine.console.written := by
  -- The longer run takes steps at the end of the shorter one.
  induction fuel with
  | zero =>
    obtain rfl := Nat.le_zero.mp few
    exact List.suffix_refl _
  | succ fuel ih =>
    rcases Nat.le_succ_iff.mp few with earlier | rfl
    · refine (ih earlier).trans ?_
      rw [run_succ]
      cases m.run devices image fuel with
      | next last =>
        rcases advance_written devices image last with ⟨n, next, added⟩ | ⟨_, kept⟩
        · dsimp only
          rw [next, Outcome.machine, Outcome.machine, added]
          exact List.suffix_append _ _
        · exact kept.symm ▸ List.suffix_refl _
      | exit code last => exact List.suffix_refl _
      | fault fault last => exact List.suffix_refl _
    · exact List.suffix_refl _

/-- Devices that answer alike let a run have one outcome. -/
theorem run_congr (same : devices.refusal = others.refusal) (fuel : Nat) :
    m.run devices image fuel = m.run others image fuel := by
  -- A run asks no more of the devices than its steps do, one by one.
  induction fuel generalizing m with
  | zero => rfl
  | succ fuel ih =>
    have step : m.advance devices image = m.advance others image :=
      advance_congr fun _ _ => by rw [same]
    rw [Machine.run, Machine.run, step]
    split
    · exact ih
    · rfl

/-- Where nothing is refused, a step keeps the console unrefused. -/
theorem advance_unrefused (image : Image) (h : m.console.Unrefused) :
    (m.advance .willing image).machine.console.Unrefused := by
  -- What is written is seen and taken at once.
  cases writes : m.message? image with
  | none =>
    rw [(advance_of_quiet .willing writes).2]
    exact h
  | some message =>
    obtain ⟨n, recorded, outcome⟩ := advance_of_message writes
    rw [outcome]
    dsimp only [Devices.willing, Outcome.machine]
    rw [recorded]
    exact h.record message.write

/-- Where nothing is refused, a run that goes on keeps the console unrefused. -/
theorem run_unrefused {fuel : Nat} (h : m.console.Unrefused)
    (ran : m.run .willing image fuel = .next n) : n.console.Unrefused := by
  -- The last step is taken from a machine whose console is unrefused already.
  induction fuel generalizing n with
  | zero =>
    cases ran
    exact h
  | succ fuel ih =>
    obtain ⟨last, earlier, next⟩ := run_succ_eq_next_iff.mp ran
    have after := advance_unrefused image (ih earlier)
    rwa [next] at after

section Refused

variable {stream : Stream} {number : Nat} {reason : String}

/-- Up to the write that is refused, a run is the one in which none is. -/
theorem run_of_few (refuses : devices.Refuses stream number reason) (h : m.console.Unrefused)
    {fuel : Nat} (few : (m.run .willing image fuel).machine.console.taken stream < number) :
    m.run devices image fuel = m.run .willing image fuel := by
  -- What the last step writes is among what was counted.
  induction fuel with
  | zero => rfl
  | succ fuel ih =>
    have fewer : (m.run .willing image fuel).machine.console.taken stream < number :=
      Nat.lt_of_le_of_lt (run_written .willing image m (Nat.le_succ fuel)).sublist.countP_le few
    rw [run_succ, run_succ, ih fewer]
    cases ran : m.run .willing image fuel with
    | exit code last => rfl
    | fault fault last => rfl
    | next last =>
      refine advance_congr fun message writes => ?_
      change _ = none
      by_cases on : message.write.stream = stream
      · -- The write is the next one to be counted, and so not the one to be refused.
        obtain ⟨n, recorded, outcome⟩ := advance_of_message writes
        have next : last.advance .willing image = .next n := outcome .willing
        rw [run_succ, ran] at few
        dsimp only at few
        rw [next, Outcome.machine, recorded, Console.taken_record, if_pos on,
          ← run_unrefused h ran, ← on] at few
        rw [on]
        exact refuses.earlier _ (on ▸ few)
      · exact refuses.other _ on _

/-- A step that comes to a number of writes to a stream makes the last of them. -/
theorem advance_reaches (before : m.console.taken stream < number)
    (many : number ≤ (m.advance .willing image).machine.console.taken stream) :
    ∃ message, m.message? image = some message ∧ message.write.stream = stream ∧
      m.console.taken stream + 1 = number := by
  -- The count grows by one, with a message to this stream, or it stays.
  cases writes : m.message? image with
  | none =>
    rw [(advance_of_quiet .willing writes).2] at many
    exact absurd many (Nat.not_le_of_lt before)
  | some message =>
    obtain ⟨n, recorded, outcome⟩ := advance_of_message writes
    have next : m.advance .willing image = .next n := outcome .willing
    rw [next, Outcome.machine, recorded, Console.taken_record] at many
    by_cases on : message.write.stream = stream
    · rw [if_pos on] at many
      exact ⟨message, rfl, on, by omega⟩
    · rw [if_neg on] at many
      exact absurd many (Nat.not_le_of_lt before)

/-- A run that makes a number of writes to a stream has come to the last of them. -/
theorem run_reaches {fuel : Nat} (before : m.console.taken stream < number)
    (many : number ≤ (m.run .willing image fuel).machine.console.taken stream) :
    ∃ steps last message, steps < fuel ∧ m.run .willing image steps = .next last ∧
      last.message? image = some message ∧ message.write.stream = stream ∧
      last.console.taken stream + 1 = number := by
  -- The last step has made the write, or a shorter run has come to it.
  induction fuel with
  | zero => exact absurd many (Nat.not_le_of_lt before)
  | succ fuel ih =>
    by_cases earlier : number ≤ (m.run .willing image fuel).machine.console.taken stream
    · obtain ⟨steps, last, message, small, rest⟩ := ih earlier
      exact ⟨steps, last, message, Nat.lt_succ_of_lt small, rest⟩
    · rw [run_succ] at many
      cases ran : m.run .willing image fuel with
      | exit code last =>
        rw [ran] at earlier many
        exact absurd many earlier
      | fault fault last =>
        rw [ran] at earlier many
        exact absurd many earlier
      | next last =>
        rw [ran] at earlier many
        obtain ⟨message, writes, on, reached⟩ := advance_reaches (Nat.lt_of_not_le earlier) many
        exact ⟨fuel, last, message, Nat.lt_succ_self fuel, ran, writes, on, reached⟩

end Refused

end Machine

namespace Program

variable {p : Program} {devices others : Devices} {fuel : Nat} {m : Machine}

/-- Devices that answer alike to writes let executions have one outcome. -/
theorem outcome_congr (same : devices.refusal = others.refusal) :
    p.outcome devices fuel m = p.outcome others fuel m := by
  -- Starting a program asks nothing of the devices.
  unfold outcome
  split
  · rfl
  · exact Machine.run_congr same fuel

/-- Devices that refuse to finish a stream change the result, and only where there is no fault. -/
theorem execute_finishing :
    p.execute devices fuel m = (p.execute devices.finishing fuel m).map fun e =>
      { e with result := devices.conclude e.result } := by
  -- The outcome is the same, and is concluded in two ways.
  have same : p.outcome devices fuel m = p.outcome devices.finishing fuel m := outcome_congr rfl
  rw [execute_eq_ending, execute_eq_ending, same]
  cases p.outcome devices.finishing fuel m <;> rfl

private theorem unrefused_fresh (input : List UInt8) : (Machine.fresh input).console.Unrefused := by
  -- A new console has counted nothing, and nothing was written to it.
  intro stream
  cases stream <;> rfl

/-- Up to the write that is refused, an execution is the one in which none is. -/
theorem outcome_of_few {stream : Stream} {number : Nat} {reason : String} {input : List UInt8}
    (refuses : devices.Refuses stream number reason)
    (few : (p.outcome .willing fuel (.fresh input)).machine.console.taken stream < number) :
    p.outcome devices fuel (.fresh input) = p.outcome .willing fuel (.fresh input) := by
  -- A new machine has seen no write, and a program that does not link makes none.
  cases linked : p.link with
  | error fault => simp [outcome, start, linked, Bind.bind, Except.bind]
  | ok image =>
    rw [outcome_of_link linked] at few ⊢
    rw [outcome_of_link linked]
    exact Machine.run_of_few refuses (unrefused_fresh input) few

/-- Behind the write that is refused, nothing is carried out any more. -/
theorem outcome_of_many {stream : Stream} {number : Nat} {reason : String} {input : List UInt8}
    (refuses : devices.Refuses stream number reason) (positive : 1 ≤ number)
    (many : number ≤ (p.outcome .willing fuel (.fresh input)).machine.console.taken stream) :
    ∃ steps before w, steps < fuel ∧ w.stream = stream ∧
      before.console.taken stream + 1 = number ∧
      p.outcome .willing steps (.fresh input) = .next before ∧
      w :: before.console.written <:+
        (p.outcome .willing fuel (.fresh input)).machine.console.written ∧
      ∀ enough > steps, p.outcome devices enough (.fresh input) =
        .fault (.refused reason)
          { before with pc := before.pc + 1, console := before.console.bump stream } := by
  cases linked : p.link with
  | error fault =>
    -- Nothing is written by a program that does not link.
    simp [outcome, start, linked, Bind.bind, Except.bind, Outcome.machine, Console.taken,
      Machine.fresh, Console.empty] at many
    omega
  | ok image =>
    rw [outcome_of_link linked] at many ⊢
    obtain ⟨steps, before, message, small, ran, writes, rfl, reached⟩ :=
      Machine.run_reaches positive many
    obtain ⟨n, recorded, stepped⟩ := Machine.advance_of_message writes
    have next : before.advance .willing image = .next n := stepped .willing
    refine ⟨steps, before, message.write, small, rfl, reached,
      (outcome_of_link linked input).trans ran, ?_, ?_⟩
    · -- The write is the latest one after the step that makes it.
      have onward : Machine.run .willing image (steps + 1) (.fresh input) = .next n :=
        Machine.run_succ_eq_next_iff.mpr ⟨before, ran, next⟩
      have kept := Machine.run_written .willing image (.fresh input) small
      rw [onward, Outcome.machine, recorded] at kept
      exact kept
    · intro enough more
      -- Both runs have come to the write, and one device refuses it.
      have few : (Machine.run .willing image steps (.fresh input)).machine.console.taken
          message.write.stream < number := by
        rw [ran]
        exact Nat.lt_of_succ_le (Nat.le_of_eq reached)
      have also := Machine.run_of_few refuses (unrefused_fresh input) few
      have failed := stepped devices
      rw [Machine.run_unrefused (unrefused_fresh input) ran, reached, refuses.refused] at failed
      rw [outcome_of_link linked]
      refine (Machine.run_of_stopped (also.trans ran) ?_ more).trans failed
      rw [failed]
      intro n goesOn
      cases goesOn

/--
A write that fails cuts a run off cleanly, and a stream that cannot be finished spoils nothing.

First, let a device refuse one write to one stream. As long as an execution on willing devices makes
fewer writes to the stream, the other execution is the same. Once it makes that write, the other
execution has made the writes before it, to both streams and in the same sequence, and has ended in
the refusal with the machine that was about to write, except that the write was fetched and counted.
Second, a refusal to finish a stream only replaces success; faults, writes and the machine stay.
-/
theorem write_failure_cuts_off (p : Program) :
    (∀ devices stream number reason, devices.Refuses stream number reason → 1 ≤ number →
      ∀ fuel input,
        let full := p.outcome .willing fuel (.fresh input)
        (full.machine.console.taken stream < number →
          p.outcome devices fuel (.fresh input) = full ∧
          p.execute devices.finishing fuel (.fresh input) =
            p.execute .willing fuel (.fresh input)) ∧
        (number ≤ full.machine.console.taken stream →
          ∃ steps before earlier w later, steps < fuel ∧
            p.outcome .willing steps (.fresh input) = .next before ∧
            before.console.written.reverse = earlier ∧
            full.machine.console.written.reverse = earlier ++ w :: later ∧
            w.stream = stream ∧ (earlier.countP fun w => w.stream = stream) + 1 = number ∧
            ∀ enough > steps, ∃ console, console.written.reverse = earlier ∧
              p.execute devices enough (.fresh input) =
                some ⟨.error (.refused reason), { before with pc := before.pc + 1, console }⟩)) ∧
    ∀ devices fuel m,
      (p.execute devices.finishing fuel m = none → p.execute devices fuel m = none) ∧
      ∀ e, p.execute devices.finishing fuel m = some e →
        ∃ result, p.execute devices fuel m = some { e with result } ∧
          (∀ fault, e.result = .error fault → result = .error fault) ∧
          ∀ code, e.result = .ok code →
            ((∀ stream, devices.flushRefusal stream = none) → result = .ok code) ∧
            ∀ stream reason, devices.flushRefusal stream = some reason →
              (stream = .err → devices.flushRefusal .out = none) →
                result = .error (.refused reason) := by
  refine ⟨?_, ?_⟩
  · intro devices stream number reason refuses positive fuel input full
    refine ⟨fun few => ?_, fun many => ?_⟩
    · -- The outcomes are the same, and both are finished without a refusal.
      have same := outcome_of_few refuses few
      have finishing : p.outcome devices.finishing fuel (.fresh input) =
          p.outcome devices fuel (.fresh input) := outcome_congr rfl
      refine ⟨same, ?_⟩
      rw [execute_eq_ending, execute_eq_ending, finishing, same]
      cases p.outcome .willing fuel (.fresh input) <;> rfl
    · obtain ⟨steps, before, w, small, on, reached, ran, ⟨later, kept⟩, failed⟩ :=
        outcome_of_many refuses positive many
      -- What was written is listed latest first, and so it is turned round.
      refine ⟨steps, before, before.console.written.reverse, w, later.reverse, small, ran, rfl, ?_,
        on, ?_, ?_⟩
      · rw [← kept]
        simp
      · rw [(List.reverse_perm _).countP_eq]
        exact reached
      · intro enough more
        refine ⟨before.console.bump stream, ?_, ?_⟩
        · cases stream <;> rfl
        · rw [execute_eq_ending, failed enough more]
          rfl
  · intro devices fuel m
    -- Whatever the execution ends with, concluding it is all that is left.
    have whole := @execute_finishing p devices fuel m
    refine ⟨fun running => by rw [whole, running]; rfl, ?_⟩
    intro e ended
    refine ⟨devices.conclude e.result, by rw [whole, ended]; rfl, ?_, ?_⟩
    · intro fault failed
      rw [failed]
      rfl
    · intro code left
      rw [left]
      exact ⟨fun fine => Devices.conclude_of_finished fine _,
        fun stream reason refused first => Devices.conclude_of_refused refused first code⟩

/-- A program that writes an empty text among others, and to both streams. -/
def twoResults : Program :=
  { instructions := [⟨.write, 1, [.literal (.string "a")]⟩, ⟨.write, 2, [.literal .nil]⟩,
      ⟨.dprint, 3, [.literal (.string "b")]⟩, ⟨.write, 4, [.literal (.string "c")]⟩,
      ⟨.exit, 5, [.literal (.int 3)]⟩] }

/-- Devices with room for one result. -/
def oneResult : Devices :=
  { refusal := fun stream number => if stream = .out ∧ number = 2 then some "full" else none
    flushRefusal := fun _ => none }

/-- The second result is refused, and neither the empty text nor the message counts for one. -/
theorem write_failure_cuts_off_of_twoResults :
    oneResult.Refuses .out 2 "full" ∧
    ∃ e, twoResults.execute oneResult 5 (.fresh []) = some e ∧
      e.result = .error (.refused "full") ∧
      e.machine.console.written.reverse = [⟨.out, "a"⟩, ⟨.err, "b"⟩] := by
  have refuses : oneResult.Refuses .out 2 "full" := by
    refine ⟨rfl, fun count small => ?_, fun another other count => ?_⟩
    · exact if_neg fun both => Nat.ne_of_lt small both.2
    · exact if_neg fun both => other both.1
  refine ⟨refuses, ?_⟩
  have sorted : twoResults.sorted = twoResults.instructions :=
    List.mergeSort_of_pairwise (by decide)
  have linked : twoResults.link = .ok ⟨twoResults.instructions.toArray, []⟩ := by
    rw [link_eq_ok_iff, sorted]
    exact ⟨rfl, rfl⟩
  obtain ⟨_, cut⟩ :=
    (write_failure_cuts_off twoResults).1 oneResult .out 2 "full" refuses (by decide) 5 []
  rw [outcome_of_link linked] at cut
  obtain ⟨steps, before, earlier, w, later, small, _, _, whole, on, reached, failed⟩ :=
    cut (by decide)
  obtain ⟨console, written, ended⟩ := failed 5 small
  refine ⟨_, ended, rfl, written.trans ?_⟩
  -- Of the three writes, the last one is the second to its stream.
  change [⟨.out, "a"⟩, ⟨.err, "b"⟩, ⟨.out, "c"⟩] = earlier ++ w :: later at whole
  rcases earlier with _ | ⟨first, _ | ⟨second, _ | ⟨third, rest⟩⟩⟩
  · simp at reached
  · obtain ⟨rfl, rfl, rfl⟩ : ⟨.out, "a"⟩ = first ∧ ⟨.err, "b"⟩ = w ∧ [⟨.out, "c"⟩] = later := by
      simpa using whole
    cases on
  · obtain ⟨rfl, rfl, _⟩ : ⟨.out, "a"⟩ = first ∧ ⟨.err, "b"⟩ = second ∧ ⟨.out, "c"⟩ = w ∧
        [] = later := by simpa using whole
    rfl
  · simp at whole

end Program

end ThreeAddress
