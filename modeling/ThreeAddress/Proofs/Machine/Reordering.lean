import ThreeAddress.Proofs.Machine.Linking
import ThreeAddress.Proofs.Machine.Lives
import ThreeAddress.Proofs.Machine.Lockstep
import ThreeAddress.Proofs.Source.RoundTrip

/-!
The orders of a program matter only by how they compare: other orders for the same sequence change
what faults and dumps show and nothing else, so that a program behaves like its listing.
-/

namespace ThreeAddress

/-- Two endings are alike if the results are the same up to orders and the machines are alike. -/
structure Ending.Alike (f : UInt64 → UInt64) (a b : Ending) : Prop where
  result : b.result = a.result.mapError (Fault.reorder f)
  machine : a.machine.Alike f b.machine

/-- Two programs behave alike if no run tells them apart but by the orders that a map relates. -/
structure Program.BehavesAlike (f : UInt64 → UInt64) (p q : Program) : Prop where
  /-- What stops one program from linking stops the other. -/
  rejected : ∀ fault, p.link = .error fault → q.link = .error (fault.reorder f)
  /-- Both link with one table of labels, and runs from one machine are alike after each step. -/
  running : ∀ image, p.link = .ok image → ∃ other, q.link = .ok other ∧
    other.labels = image.labels ∧ ∀ devices (m : Machine) fuel,
      Outcome.Alike f (m.run devices image fuel) (m.run devices other fuel)
  /-- The next step writes the same in both runs, unless it is a dump. -/
  writing : ∀ image other, p.link = .ok image → q.link = .ok other →
    ∀ devices (m : Machine) fuel a b,
      m.run devices image fuel = .next a → m.run devices other fuel = .next b →
      (∀ i, image.code[a.pc]? = some i → i.opcode ≠ .dump) →
        a.console.GainSame (a.advance devices image).machine.console
          b.console (b.advance devices other).machine.console
  /-- Both executions go on, or both end after the same number of steps and alike. -/
  ending : ∀ devices fuel m,
    Option.Rel (Ending.Alike f) (p.execute devices fuel m) (q.execute devices fuel m)

variable {f : UInt64 → UInt64}

/-- Among orders that a map keeps apart, neighbours share one before and after. -/
theorem sharedOrder?_reorder {code : List Instruction}
    (apart : ∀ i ∈ code, ∀ j ∈ code, f i.order = f j.order ↔ i.order = j.order) :
    sharedOrder? (code.map (Instruction.reorder f)) = (sharedOrder? code).map f := by
  -- Each pair of neighbours is compared with the same answer, and the map names the order found.
  fun_induction sharedOrder? code with
  | case1 i j rest same => simp [sharedOrder?, Instruction.reorder, same]
  | case2 i j rest differ ih =>
    -- The first two are not at fault, and the others are kept apart as before.
    have mapped : f i.order ≠ f j.order := fun same =>
      differ ((apart i (by simp) j (by simp)).mp same)
    rw [← ih fun k first l second =>
      apart k (List.mem_cons_of_mem i first) l (List.mem_cons_of_mem i second)]
    simp [sharedOrder?, Instruction.reorder, mapped]
  | case3 code short =>
    cases code with
    | nil => rfl
    | cons i rest =>
      cases rest with
      | nil => rfl
      | cons j rest => exact absurd rfl (short i j rest)

/-- The pass over the instructions builds one table under all orders, and stops at one flaw. -/
theorem linkFrom_reorder (position : Nat) (labels : Labels) (code : List Instruction) :
    linkFrom position labels (code.map (Instruction.reorder f)) =
      (linkFrom position labels code).mapError (Fault.reorder f) := by
  -- The pass looks at operands and labels, and at orders only to name the one at fault.
  induction code generalizing position labels with
  | nil => rfl
  | cons i rest ih =>
    -- What the pass asks of an instruction does not depend on its order.
    have misfit : (i.reorder f).misfit? = i.misfit? := rfl
    have defined : (i.reorder f).definedLabel? = i.definedLabel? := rfl
    rw [List.map_cons, linkFrom, linkFrom, misfit, defined]
    cases i.misfit? with
    | some m => rfl
    | none =>
      cases i.definedLabel? with
      | none => exact ih (position + 1) labels
      | some name =>
        dsimp only
        split
        · -- A label that is known stops both passes here.
          rfl
        · exact ih (position + 1) ((name, position) :: labels)

/-- Linking instructions under other orders that are as different has the same result. -/
theorem linkCode_reorder {code : List Instruction}
    (apart : ∀ i ∈ code, ∀ j ∈ code, f i.order = f j.order ↔ i.order = j.order) :
    linkCode (code.map (Instruction.reorder f)) =
      (linkCode code).mapError (Fault.reorder f) := by
  -- Orders are shared where they were, and the table names no order.
  rw [linkCode, linkCode, sharedOrder?_reorder apart]
  cases sharedOrder? code with
  | some order => rfl
  | none => exact linkFrom_reorder 0 [] code

/-- Outcomes that are alike amount to endings that are alike, or to none. -/
theorem Outcome.Alike.ending (devices : Devices) {a b : Outcome} (h : a.Alike f b) :
    Option.Rel (Ending.Alike f) (Program.ending devices a) (Program.ending devices b) := by
  -- Concluding a run looks at its result alone, which names the other order.
  cases h with
  | next alike => exact .none
  | exit code alike => exact .some ⟨devices.conclude_mapError (fun _ => rfl) (.ok code), alike⟩
  | fault fault alike =>
    exact .some ⟨devices.conclude_mapError (fun _ => rfl) (.error fault), alike⟩

namespace Program

variable {p q : Program}

/-- A program with the same sequence under other orders links as the first one does. -/
theorem link_of_sorted (h : p.Increasing f)
    (same : q.sorted = p.sorted.map (Instruction.reorder f)) :
    q.link = (p.link.map (Image.reorder f)).mapError (Fault.reorder f) := by
  -- Both programs hand over their sorted instructions, where the map keeps orders apart.
  have linked : linkCode q.sorted = (linkCode p.sorted).mapError (Fault.reorder f) := by
    rw [same]
    exact linkCode_reorder fun i first j second =>
      h.eq_iff (mem_sorted.mp first) (mem_sorted.mp second)
  unfold link
  rw [linked, same]
  cases linkCode p.sorted with
  | error fault => rfl
  | ok labels =>
    have mapped : (p.sorted.map (Instruction.reorder f)).toArray =
        p.sorted.toArray.map (Instruction.reorder f) := List.map_toArray.symm
    exact congrArg (fun code => Except.ok ({ code, labels } : Image)) mapped

/-- A program behaves like any other with the same sequence under orders that compare alike. -/
theorem behavesAlike_of_sorted (h : p.Increasing f)
    (same : q.sorted = p.sorted.map (Instruction.reorder f)) : p.BehavesAlike f q := by
  -- Linking gives images that differ in orders, and these run in lockstep.
  have linked := link_of_sorted h same
  have built {image : Image} (ok : p.link = .ok image) : q.link = .ok (image.reorder f) := by
    rw [linked, ok]
    rfl
  refine ⟨?_, ?_, ?_, ?_⟩
  · -- A program that does not link never runs, so the fault is all there is.
    intro fault failed
    rw [linked, failed]
    rfl
  · intro image ok
    refine ⟨image.reorder f, built ok, rfl, ?_⟩
    exact fun devices m fuel => (Machine.Alike.refl m).run devices image fuel
  · -- Both runs have arrived at machines that are alike, and take one more step.
    intro image other ok also devices m fuel a b first second
    obtain rfl : image.reorder f = other := Except.ok.inj ((built ok).symm.trans also)
    have reached := (Machine.Alike.refl (f := f) m).run devices image fuel
    rw [first, second] at reached
    cases reached with
    | next alike => exact alike.advance_same devices image
  · -- An execution is linking, a run from the first position, and finishing the streams.
    intro devices fuel m
    unfold execute start
    rw [linked]
    cases p.link with
    | error fault => exact .some ⟨devices.conclude_mapError (fun _ => rfl) (.error fault), .refl m⟩
    | ok image =>
      exact ((Machine.Alike.refl { m with pc := 0 }).run devices image fuel).ending devices

/--
Orders matter only by how they compare, so formatting a program preserves its meaning.

A program behaves like the one in which a map is applied to all orders, if the map is strictly
increasing on them. A program without repeated orders that source text can express also behaves
like the program that its listing assembles to, as long as there are enough orders to number it.
-/
theorem orders_matter_by_comparison (p : Program) :
    (∀ f, p.Increasing f → p.BehavesAlike f (p.reorder f)) ∧
    ((p.instructions.map Instruction.order).Nodup → (∀ i ∈ p.instructions, i.Expressible) →
      p.instructions.length < UInt64.size →
        ∃ f q, p.Increasing f ∧ Source.assemble p.listing = .ok q ∧ p.BehavesAlike f q) := by
  constructor
  · exact fun f increasing => behavesAlike_of_sorted increasing (sorted_reorder increasing)
  · intro distinct expressible small
    have increasing := increasing_rankOf small
    refine ⟨p.rankOf, p.renumbered, increasing, Source.assemble_listing expressible, ?_⟩
    -- The assembled program is the sorted one with ranks for orders, and sorting it again is idle.
    refine behavesAlike_of_sorted increasing ?_
    rw [renumbered_eq_reorder distinct, sorted_reorder increasing.inSequence, sorted_inSequence]

/-- A program that dumps the machine and ends, with its instructions the other way round. -/
def dumpThenExit : Program :=
  { instructions := [⟨.exit, 30, [.literal (.int 3)]⟩, ⟨.dump, 10, []⟩] }

/-- Counting orders in tens makes no difference to a dump that is followed by an exit. -/
theorem orders_matter_by_comparison_of_tens :
    dumpThenExit.BehavesAlike (· / 10) (dumpThenExit.reorder (· / 10)) ∧
    ∃ f q, dumpThenExit.Increasing f ∧ Source.assemble dumpThenExit.listing = .ok q ∧
      dumpThenExit.BehavesAlike f q := by
  -- There are two orders, which keep their sequence when they are divided by ten.
  refine ⟨(orders_matter_by_comparison dumpThenExit).1 (· / 10) ?_,
    (orders_matter_by_comparison dumpThenExit).2 ?_ ?_ ?_⟩
  · unfold Increasing
    decide
  · decide
  · unfold Instruction.Expressible
    decide
  · decide

end Program

end ThreeAddress
