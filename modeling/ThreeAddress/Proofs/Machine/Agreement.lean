import ThreeAddress.Machine.Execution
import ThreeAddress.Proofs.Machine.Causes
import ThreeAddress.Proofs.Machine.Linking

/-!
The passes that look for defects agree with the machine: they foresee whether a program links,
what linking would complain about, and which jumps can fail for lack of a label.
-/

namespace ThreeAddress.Program

variable {p : Program}

/-- A program links exactly when nothing but missing labels is reported. -/
theorem link_iff_only_undefined :
    (∃ image, p.link = .ok image) ↔ ∀ d ∈ p.defects, ∃ name, d.flaw = .undefinedLabel name := by
  rw [Defect.only_undefined_iff]
  constructor
  · rintro ⟨image, linked⟩
    exact sound_of_link linked
  · rintro ⟨sound, distinct⟩
    -- Linking either goes through or stops at something that was reported.
    cases linked : p.link with
    | ok image => exact ⟨image, rfl⟩
    | error fault =>
      obtain ⟨d, reported, _⟩ := reported_of_link linked
      simp [sound, distinct] at reported

/-- What stops linking is a defect of the program. -/
theorem link_error_reported {fault : Fault} (failed : p.link = .error fault) :
    ∃ d ∈ p.defects, fault = .raised d.order (.flaw d.flaw) ∧
      (d.first = none ∨ ∃ name, d.flaw = .duplicateLabel name) := by
  -- The passes are joined into one list, so it does not matter which of them reports.
  obtain ⟨d, reported, named⟩ := reported_of_link failed
  refine ⟨d, ?_, named⟩
  rcases reported with reported | reported
  · exact List.mem_append_left _ reported
  · exact List.mem_append_right _ (List.mem_append_left _ reported)

/-- A run finds no flaw but a missing label, and that is a defect of the program. -/
theorem run_flaw_reported {image : Image} {devices : Devices} {fuel : Nat} {m after : Machine}
    {order : UInt64} {flaw : Flaw} (linked : p.link = .ok image)
    (failed : m.run devices image fuel = .fault (.raised order (.flaw flaw)) after) :
    (∃ name, flaw = .undefinedLabel name) ∧ ⟨order, flaw, none⟩ ∈ p.defects := by
  -- The failing jump belongs to the program, and the table holds all labels that it defines.
  obtain ⟨before, failed⟩ := Machine.run_fault failed
  obtain ⟨i, name, fetched, rfl, target, missing, rfl⟩ := Machine.advance_flaw failed
  have member : i ∈ p.sorted := by
    rw [(link_eq_ok_iff.mp linked).2, List.getElem?_toArray] at fetched
    exact List.mem_of_getElem? fetched
  have undefined : (Defect.definitions p.sorted).lookup name = none := by
    rw [← Option.not_isSome_iff_eq_none, ← link_labels linked name, missing]
    simp
  refine ⟨⟨name, rfl⟩, List.mem_append_right _ ?_⟩
  exact Defect.mem_labels_of_undefined member target undefined

/-- An execution that ends with a flaw has met a defect of the program. -/
theorem execute_flaw_reported {devices : Devices} {fuel : Nat} {m : Machine} {ending : Ending}
    {order : UInt64} {flaw : Flaw} (ended : p.execute devices fuel m = some ending)
    (failed : ending.result = .error (.raised order (.flaw flaw))) : p.defects ≠ [] := by
  -- A flaw ends an execution while linking or in a step, and both are reported.
  unfold Program.execute Program.start at ended
  intro sound
  cases linked : p.link with
  | error fault =>
    obtain ⟨d, reported, _⟩ := link_error_reported linked
    simp [sound] at reported
  | ok image =>
    simp only [linked, Bind.bind, Except.bind, Pure.pure, Except.pure] at ended
    cases outcome : Machine.run devices image fuel { m with pc := 0 } with
    | next n =>
      -- A run that goes on has not ended at all.
      simp [outcome, Program.ending] at ended
    | exit code n =>
      -- Flushing can only turn success into a refusal, which is no flaw.
      simp only [outcome, Program.ending, Option.some.injEq] at ended
      subst ended
      simp only [Devices.conclude] at failed
      split at failed <;> simp at failed
    | fault fault n =>
      -- The fault of the run is the result of the execution.
      simp only [outcome, Program.ending, Option.some.injEq] at ended
      subst ended
      simp only [Devices.conclude, Except.error.injEq] at failed
      subst failed
      obtain ⟨_, reported⟩ := run_flaw_reported linked outcome
      simp [sound] at reported

/--
The defects of a program foretell what the machine complains about.

Linking goes through unless they hold more than missing labels, and what stops it is one of them.
So is every missing label that a run of any length meets, on any machine and devices. A program
without defects therefore never ends with a flaw.
-/
theorem defects_foretell_flaws (p : Program) :
    ((∃ image, p.link = .ok image) ↔ ∀ d ∈ p.defects, ∃ name, d.flaw = .undefinedLabel name) ∧
    (∀ fault, p.link = .error fault →
      ∃ d ∈ p.defects, fault = .raised d.order (.flaw d.flaw) ∧
        (d.first = none ∨ ∃ name, d.flaw = .duplicateLabel name)) ∧
    (∀ devices fuel m image started order name after, p.start m = .ok (image, started) →
      started.run devices image fuel = .fault (.raised order (.flaw (.undefinedLabel name))) after →
        ⟨order, .undefinedLabel name, none⟩ ∈ p.defects) ∧
    (p.defects = [] → ∀ devices fuel m ending, p.execute devices fuel m = some ending →
      ∀ order flaw, ending.result ≠ .error (.raised order (.flaw flaw))) := by
  -- Linking and jumping are all that can find a flaw, and each has its report.
  refine ⟨link_iff_only_undefined, fun fault failed => link_error_reported failed, ?_, ?_⟩
  · -- Starting an execution links the program, and the run uses that image.
    intro devices fuel m image started order name after begun failed
    obtain ⟨linked, same, built⟩ := bind_eq_ok_iff.mp begun
    cases built
    exact (run_flaw_reported same failed).2
  · intro sound devices fuel m ending ended order flaw failed
    exact execute_flaw_reported ended failed sound

/-- A program that only jumps to a label it does not define. -/
def strayJump : Program :=
  { instructions := [⟨.jump, 7, [.label "nowhere"]⟩] }

/-- A program that only ends, but does not say with which status. -/
def bareExit : Program :=
  { instructions := [⟨.exit, 3, []⟩] }

/-- The foretold flaws of a bare exit, of a stray jump and of no instruction at all. -/
theorem defects_foretell_flaws_of_small :
    (∃ d ∈ bareExit.defects, Fault.raised 3 (.flaw (.misfit .exit (.count 1 0))) =
      .raised d.order (.flaw d.flaw) ∧ (d.first = none ∨ ∃ name, d.flaw = .duplicateLabel name)) ∧
    ⟨7, .undefinedLabel "nowhere", none⟩ ∈ strayJump.defects ∧
    ∀ order flaw, (Except.ok 0 : Except Fault Nat) ≠ .error (.raised order (.flaw flaw)) := by
  -- All three programs link or fail to link by computation.
  refine ⟨(defects_foretell_flaws bareExit).2.1 _ ?_, ?_, ?_⟩
  · rw [link_eq_error_iff, Program.sorted, bareExit, List.mergeSort_singleton]
    rfl
  · refine (defects_foretell_flaws strayJump).2.2.1 .willing 1 (.fresh [])
      { code := #[⟨.jump, 7, [.label "nowhere"]⟩], labels := [] } (.fresh []) 7 "nowhere"
      { Machine.fresh [] with pc := 1 } ?_ ?_
    · simp only [Program.start, Program.link, Program.sorted, strayJump, List.mergeSort_singleton]
      rfl
    · rfl
  · refine (defects_foretell_flaws { instructions := [] }).2.2.2 ?_ .willing 1 (.fresh [])
      { result := .ok 0, machine := .fresh [] } ?_
    · simp only [Program.defects, Program.sorted, List.mergeSort_nil]
      rfl
    · simp only [Program.execute, Program.start, Program.link, Program.sorted, List.mergeSort_nil]
      rfl

end ThreeAddress.Program
