import ThreeAddress.Proofs.Machine.Faults

/-! A step that fails leaves the machine as it was, but for the instruction that it fetched. -/

namespace ThreeAddress.Machine

/-- However an instruction fails, all but the counts of the console is as it was. -/
theorem step_fault_unchanged {devices : Devices} {labels : Labels} {m after : Machine}
    {i : Instruction} {fault : Fault} (failed : m.step devices labels i = .fault fault after) :
    after = { m with console := after.console } ∧
      after.console.written = m.console.written ∧
      ((∃ reason, fault = .refused reason) ∨ ∃ cause, fault = .raised i.order cause) := by
  -- Each kind of failure shows at once what is left and whom it blames.
  rcases step_fault failed with ⟨cause, _, rfl, rfl⟩ | performed
  · exact ⟨rfl, rfl, .inr ⟨cause, rfl⟩⟩
  · cases performed with
    | refused reason console unwritten => exact ⟨rfl, unwritten, .inl ⟨reason, rfl⟩⟩
    | frame e => exact ⟨rfl, rfl, .inr ⟨_, rfl⟩⟩
    | emptyDataStack => exact ⟨rfl, rfl, .inr ⟨_, rfl⟩⟩
    | emptyCallStack => exact ⟨rfl, rfl, .inr ⟨_, rfl⟩⟩

/-- A machine whose step fails has moved past an instruction, and has counted a write at most. -/
theorem advance_fault_unchanged {devices : Devices} {image : Image} {m after : Machine}
    {fault : Fault} (failed : m.advance devices image = .fault fault after) :
    after = { m with pc := m.pc + 1, console := after.console } := by
  -- A step that fails has fetched an instruction, and carrying it out left the rest alone.
  obtain ⟨i, _, failed⟩ := advance_fault failed
  exact (step_fault_unchanged failed).1

/--
A failing step changes nothing but the position, which has moved past the fetched instruction.

The image may hold any instructions, well-formed or not, and any table of labels, which no step
can change. The fault names the order of the instruction unless a stream refused a text.
-/
theorem failing_step_changes_nothing {devices : Devices} {image : Image} {m after : Machine}
    {fault : Fault} (failed : m.advance devices image = .fault fault after) :
    ∃ i, image.code[m.pc]? = some i ∧
      after.frames = m.frames ∧ after.dataStack = m.dataStack ∧
      after.callStack = m.callStack ∧ after.pc = m.pc + 1 ∧
      after.executed = m.executed ∧ after.last = m.last ∧ after.input = m.input ∧
      after.console.written = m.console.written ∧
      ((∃ reason, fault = .refused reason) ∨ ∃ cause, fault = .raised i.order cause) := by
  -- The step began with one position further, and failing has changed the counts of writes only.
  obtain ⟨i, fetched, failed⟩ := advance_fault failed
  obtain ⟨same, unwritten, named⟩ := step_fault_unchanged failed
  rw [same]
  exact ⟨i, fetched, rfl, rfl, rfl, rfl, rfl, rfl, rfl, unwritten, named⟩

/-- A machine that is to take a value into a variable that nobody declared. -/
def poppingBlindly : Image :=
  { code := #[⟨.pops, 4, [.var ⟨.globalFrame, "x"⟩]⟩], labels := [] }

/-- A value stays on the stack if the variable that it is meant for is not declared. -/
theorem failing_step_keeps_value :
    ∃ fault after, ({ Machine.fresh [] with dataStack := [.int 5] } : Machine).advance .willing
        poppingBlindly = .fault fault after ∧
      after.dataStack = [.int 5] := by
  -- The variable is not declared, so that the step fails by computation.
  refine ⟨.raised 4 (.frame (.undeclared ⟨.globalFrame, "x"⟩)),
    { Machine.fresh [] with dataStack := [.int 5], pc := 1 }, rfl, ?_⟩
  obtain ⟨i, _, _, kept, _⟩ := failing_step_changes_nothing (show
    ({ Machine.fresh [] with dataStack := [.int 5] } : Machine).advance .willing poppingBlindly =
      .fault (.raised 4 (.frame (.undeclared ⟨.globalFrame, "x"⟩)))
        { Machine.fresh [] with dataStack := [.int 5], pc := 1 } from rfl)
  exact kept

end ThreeAddress.Machine
