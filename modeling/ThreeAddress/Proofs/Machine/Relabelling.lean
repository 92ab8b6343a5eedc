import ThreeAddress.Proofs.Language.Relabelling
import ThreeAddress.Proofs.Machine.Causes
import ThreeAddress.Proofs.Machine.Lives
import ThreeAddress.Proofs.Machine.Operands
import ThreeAddress.Proofs.Machine.Permutation

/-!
Runs of a program under other names for its labels. No machine holds the name of a label, so that
only faults can show the names, and they show them only where a label is at fault.
-/

namespace ThreeAddress

/-- A cause in which a map is applied to the label that its flaw names. -/
def Cause.relabel (g : String → String) : Cause → Cause
  | flaw f => flaw (f.relabel g)
  | other => other

/-- A fault in which a map is applied to the label that its cause names. -/
def Fault.relabel (g : String → String) : Fault → Fault
  | raised order cause => raised order (cause.relabel g)
  | refused reason => refused reason

/-- An image in which a map is applied to all labels. -/
def Image.relabel (g : String → String) (image : Image) : Image :=
  { code := image.code.map (Instruction.relabel g), labels := relabelled g image.labels }

/-- An outcome in which a map is applied to the label that its fault names. -/
def Outcome.relabel (g : String → String) : Outcome → Outcome
  | fault f m => fault (f.relabel g) m
  | other => other

/-- An ending in which a map is applied to the label that its fault names. -/
def Ending.relabel (g : String → String) (e : Ending) : Ending :=
  { e with result := e.result.mapError (Fault.relabel g) }

variable {g : String → String}

/-- A result that cannot be a flaw names no label. -/
theorem mapError_relabel_of_unflawed {α : Type} {result : Except Cause α}
    (unflawed : FailsOnly Cause.Unflawed result) : result.mapError (Cause.relabel g) = result := by
  -- A label is named in flaws alone.
  cases result with
  | ok a => rfl
  | error cause =>
    cases cause with
    | flaw f => exact (unflawed _ rfl).elim
    | _ => rfl

namespace Instruction

variable {i : Instruction} {labels : Labels} {frames : Frames}

/-- A symbol has its value under any names of labels, and a label has none. -/
theorem value_relabel (i : Instruction) (frames : Frames) (index : Nat) :
    (i.relabel g).value frames index = i.value frames index := by
  -- Renaming keeps every operand that has a value, and makes labels of labels.
  unfold value relabel
  rw [List.getElem?_map]
  rcases i.operands[index]? with _ | _ | _ | _ | _ <;> rfl

/-- A symbol has its type under any names of labels, and a label has none. -/
theorem typeOf_relabel (i : Instruction) (frames : Frames) (index : Nat) :
    (i.relabel g).typeOf frames index = i.typeOf frames index := by
  -- Renaming keeps every operand that has a type, and makes labels of labels.
  unfold typeOf relabel
  rw [List.getElem?_map]
  rcases i.operands[index]? with _ | _ | _ | _ | _ <;> rfl

/-- The destination is a variable under any names of labels. -/
theorem destination_relabel (i : Instruction) : (i.relabel g).destination = i.destination := by
  -- Renaming keeps variables, and makes labels of labels.
  unfold destination relabel
  rcases i.operands with _ | ⟨_ | _ | _ | _, _⟩ <;> rfl

/-- The type that is asked for is no label. -/
theorem requested_relabel (i : Instruction) : (i.relabel g).requested = i.requested := by
  -- Renaming keeps types, and makes labels of labels.
  unfold requested relabel
  rcases i.operands with _ | ⟨_, _ | ⟨_ | _ | _ | _, _⟩⟩ <;> rfl

/-- What is assigned is assigned to the same variable. -/
theorem assigning_relabel (i : Instruction) (value : Value) :
    (i.relabel g).assigning value = i.assigning value := by
  -- Nothing but the destination is looked for in the instruction.
  rw [assigning, assigning, destination_relabel]

/-- The target is found at its position under the new name, or is missing under the new name. -/
theorem target_relabel (inj : Function.Injective g) (i : Instruction) (labels : Labels) :
    (i.relabel g).target (relabelled g labels) =
      (i.target labels).mapError (Cause.relabel g) := by
  -- The new name stands where the old one stood, both in the operand and in the table.
  unfold target relabel
  rcases i.operands with _ | ⟨_ | _ | name | _, rest⟩
  case cons.label =>
    simp only [List.map_cons, Operand.relabel, lookup_relabelled inj]
    cases labels.lookup name <;> rfl
  all_goals rfl

/-- A branch goes where it did under new names, or fails for the same reason. -/
theorem branching_relabel (inj : Function.Injective g) (i : Instruction) (labels : Labels)
    (frames : Frames) (wanted : Bool) :
    (i.relabel g).branching (relabelled g labels) frames wanted =
      (i.branching labels frames wanted).mapError (Cause.relabel g) := by
  have target := target_relabel inj i labels
  cases found : i.target labels with
  | error cause =>
    -- The label comes first, and nothing behind it is looked at.
    rw [found] at target
    rw [branching, branching, target, found]
    rfl
  | ok position =>
    -- With a target at hand, nothing that names a label can go wrong.
    have known : FailsOnly Cause.Unflawed (i.target labels) := found ▸ FailsOnly.ok _ position
    have unflawed : FailsOnly Cause.Unflawed (i.branching labels frames wanted) :=
      branching_failsOnly (Cause.Unflawed.admits frames) known
    rw [mapError_relabel_of_unflawed unflawed]
    rw [found] at target
    rw [branching, branching, target, found, value_relabel, value_relabel]
    rfl

/-- An instruction that does not jump has the same effect under any names of labels. -/
theorem effect_relabel_of_not_isJump (plain : i.opcode.isJump = false) (labels : Labels)
    (frames : Frames) : (i.relabel g).effect labels frames = i.effect labels frames := by
  -- Only jumps look at labels, and all else is read as before.
  have op : (i.relabel g).opcode = i.opcode := rfl
  unfold effect
  simp only [op, value_relabel, typeOf_relabel, destination_relabel, requested_relabel,
    assigning_relabel]
  cases known : i.opcode with
  | call | jump | jumpIfEq | jumpIfNeq => simp [known, Opcode.isJump] at plain
  | _ => rfl

/-- The effect of an instruction is the same under new names, or it fails for the same reason. -/
theorem effect_relabel (inj : Function.Injective g) (i : Instruction) (labels : Labels)
    (frames : Frames) :
    (i.relabel g).effect (relabelled g labels) frames =
      (i.effect labels frames).mapError (Cause.relabel g) := by
  -- Without a target there is no label to name, and with one there is only the target.
  by_cases plain : i.opcode.isJump = false
  · rw [mapError_relabel_of_unflawed (effect_unflawed labels frames plain),
      effect_relabel_of_not_isJump plain,
      effect_of_not_isJump plain labels]
  · have target := target_relabel inj i labels
    have op : (i.relabel g).opcode = i.opcode := rfl
    unfold effect
    rw [op]
    cases known : i.opcode with
    | call | jump =>
      dsimp only
      rw [target]
      cases i.target labels <;> rfl
    | jumpIfEq => exact branching_relabel inj i labels frames true
    | jumpIfNeq => exact branching_relabel inj i labels frames false
    | _ => simp [known, Opcode.isJump] at plain

end Instruction

/-- Renaming the label of a fault and counting an instruction as completed do not interfere. -/
theorem Outcome.relabel_complete (outcome : Outcome) (opcode : Opcode) :
    (outcome.complete opcode).relabel g = (outcome.relabel g).complete opcode := by
  -- One of the two touches the fault, and the other one touches the machine.
  cases outcome <;> rfl

namespace Machine

variable {devices : Devices} {m : Machine}

/-- Carrying out an effect never names a label. -/
theorem perform_relabel (devices : Devices) (m : Machine) (order : UInt64) (effect : Effect) :
    (m.perform devices order effect).relabel g = m.perform devices order effect := by
  cases performed : m.perform devices order effect with
  | next n => rfl
  | exit code n => rfl
  | fault fault n =>
    -- None of the four ways to fail has to do with a label.
    cases perform_fault performed <;> rfl

/-- Carrying out an instruction under new names leads to the same state, or fails in it. -/
theorem step_relabel (inj : Function.Injective g) (devices : Devices) (labels : Labels)
    (m : Machine) (i : Instruction) :
    m.step devices (relabelled g labels) (i.relabel g) =
      (m.step devices labels i).relabel g := by
  -- Carrying out an effect asks for no label, so that only the reduction could differ.
  unfold Machine.step
  rw [i.effect_relabel inj]
  cases i.effect labels m.frames with
  | error cause => rfl
  | ok effect =>
    rw [Outcome.relabel_complete, perform_relabel]
    rfl

/-- A step under new names leads to the same state, or fails in it. -/
theorem advance_relabel (inj : Function.Injective g) (devices : Devices) (image : Image)
    (m : Machine) :
    m.advance devices (image.relabel g) = (m.advance devices image).relabel g := by
  -- Both images hold one instruction at each position, but for its labels.
  have fetched : (image.relabel g).code[m.pc]? = image.code[m.pc]?.map (Instruction.relabel g) :=
    Array.getElem?_map
  unfold Machine.advance
  rw [fetched]
  cases image.code[m.pc]? with
  | none => rfl
  | some i => exact step_relabel inj devices image.labels { m with pc := m.pc + 1 } i

/-- A run under new names comes to the same state after every number of steps. -/
theorem run_relabel (inj : Function.Injective g) (devices : Devices) (image : Image) (fuel : Nat)
    (m : Machine) :
    m.run devices (image.relabel g) fuel = (m.run devices image fuel).relabel g := by
  -- The first step leads both runs to one machine, if it leads on at all.
  induction fuel generalizing m with
  | zero => rfl
  | succ fuel ih =>
    rw [Machine.run, Machine.run, advance_relabel inj]
    cases m.advance devices image with
    | next n => exact ih n
    | exit code n => rfl
    | fault fault n => rfl

end Machine

/-- The pass over the instructions builds the same table under new names, or stops at the same. -/
theorem linkFrom_relabel (inj : Function.Injective g) (position : Nat) (labels : Labels)
    (code : List Instruction) :
    linkFrom position (relabelled g labels) (code.map (Instruction.relabel g)) =
      ((linkFrom position labels code).map (relabelled g)).mapError (Fault.relabel g) := by
  induction code generalizing position labels with
  | nil => rfl
  | cons i rest ih =>
    rw [List.map_cons, linkFrom, linkFrom, i.misfit?_relabel, i.definedLabel?_relabel]
    cases i.misfit? with
    | some m => rfl
    | none =>
      cases i.definedLabel? with
      | none => exact ih (position + 1) labels
      | some name =>
        -- A label that is known stops both passes, and any other one is added to both tables.
        simp only [Option.map_some, lookup_relabelled inj]
        split
        · rfl
        · exact ih (position + 1) ((name, position) :: labels)

/-- Linking instructions under new names gives the same table, or fails for the same reason. -/
theorem linkCode_relabel (inj : Function.Injective g) (code : List Instruction) :
    linkCode (code.map (Instruction.relabel g)) =
      ((linkCode code).map (relabelled g)).mapError (Fault.relabel g) := by
  -- Orders are not renamed, so that a shared one is found where it was.
  have orders : (code.map (Instruction.relabel g)).map Instruction.order =
      code.map Instruction.order := by
    rw [List.map_map]
    rfl
  rw [linkCode, linkCode, sharedOrder?_congr orders]
  cases sharedOrder? code with
  | some order => rfl
  | none => exact linkFrom_relabel inj 0 [] code

namespace Program

/-- A program under new names links to its image under these names, or fails as it did. -/
theorem link_relabel (inj : Function.Injective g) (p : Program) :
    (p.relabel g).link = (p.link.map (Image.relabel g)).mapError (Fault.relabel g) := by
  -- The sort keeps its sequence, and the table has the new names.
  unfold link
  rw [sorted_relabel, linkCode_relabel inj]
  cases linkCode p.sorted with
  | error fault => rfl
  | ok labels =>
    have mapped : (p.sorted.map (Instruction.relabel g)).toArray =
        p.sorted.toArray.map (Instruction.relabel g) := List.map_toArray.symm
    exact congrArg (fun code => Except.ok ({ code, labels := relabelled g labels } : Image)) mapped

/-- What an execution comes to is the same under new names, up to the label that a fault names. -/
theorem outcome_relabel (inj : Function.Injective g) (devices : Devices) (fuel : Nat) (p : Program)
    (m : Machine) :
    (p.relabel g).outcome devices fuel m = (p.outcome devices fuel m).relabel g := by
  -- What stops linking stops it under new names, and any other image is run.
  unfold outcome start
  rw [link_relabel inj]
  cases p.link with
  | error fault => rfl
  | ok image => exact Machine.run_relabel inj devices image fuel { m with pc := 0 }

/-- An execution ends in the same way under new names, up to the label that a fault names. -/
theorem execute_relabel (inj : Function.Injective g) (devices : Devices) (fuel : Nat) (p : Program)
    (m : Machine) :
    (p.relabel g).execute devices fuel m = (p.execute devices fuel m).map (Ending.relabel g) := by
  -- Concluding a run names no label, so that only faults of the run are renamed.
  rw [execute_eq_ending, execute_eq_ending, outcome_relabel inj]
  cases p.outcome devices fuel m with
  | next n => rfl
  | exit code n =>
    have status : devices.conclude (.ok code) =
        (devices.conclude (.ok code)).mapError (Fault.relabel g) :=
      devices.conclude_mapError (fun _ => rfl) (.ok code)
    exact congrArg (fun result => some (Ending.mk result n)) status
  | fault fault n => rfl

/--
The names of labels are irrelevant, as long as they are kept apart.

With other names for the labels, a program links as before, and every execution comes to the same
state after every number of steps: to the same frames, stacks, position, counts and writes, dumps
included. It ends with the same status or the same fault, in which only the name of a label that is
defined again or not at all is another. The same holds of the defects, whose sequence is kept.
-/
theorem names_of_labels_are_irrelevant (inj : Function.Injective g) (p : Program) :
    (p.relabel g).link = (p.link.map (Image.relabel g)).mapError (Fault.relabel g) ∧
    (∀ devices fuel m,
      ((p.relabel g).outcome devices fuel m).machine = (p.outcome devices fuel m).machine ∧
      (p.relabel g).outcome devices fuel m = (p.outcome devices fuel m).relabel g ∧
      (p.relabel g).execute devices fuel m =
        (p.execute devices fuel m).map (Ending.relabel g)) ∧
    (p.relabel g).defects = p.defects.map (Defect.relabel g) := by
  refine ⟨link_relabel inj p, fun devices fuel m => ?_, defects_relabel inj p⟩
  have reached := outcome_relabel inj devices fuel p m
  refine ⟨?_, reached, execute_relabel inj devices fuel p m⟩
  -- Only the label of a fault is renamed, and the machine beside it is not.
  rw [reached]
  cases p.outcome devices fuel m <;> rfl

/-- A program with two labels that differ in case, which dumps and then calls a missing one. -/
def missingCall : Program :=
  { instructions := [⟨.jump, 1, [.label "End"]⟩, ⟨.label, 2, [.label "end"]⟩,
      ⟨.exit, 3, [.literal (.int 1)]⟩, ⟨.label, 4, [.label "End"]⟩, ⟨.dump, 5, []⟩,
      ⟨.call, 6, [.label "miss"]⟩] }

/-- With a letter in front of all labels, the program dumps the same and misses another label. -/
theorem names_of_labels_are_irrelevant_of_missingCall :
    Function.Injective ("L" ++ ·) ∧
    (∃ m : Machine, m.console.outCount = 0 ∧ m.console.errCount = 1 ∧
      missingCall.execute .willing 5 (.fresh []) =
        some ⟨.error (.raised 6 (.flaw (.undefinedLabel "miss"))), m⟩ ∧
      (missingCall.relabel ("L" ++ ·)).execute .willing 5 (.fresh []) =
        some ⟨.error (.raised 6 (.flaw (.undefinedLabel "Lmiss"))), m⟩) ∧
    (missingCall.relabel ("L" ++ ·)).defects = [⟨6, .undefinedLabel "Lmiss", none⟩] := by
  -- The orders are ascending as they stand, so that linking and running compute.
  have inj : Function.Injective ("L" ++ · : String → String) := fun a b same => by simpa using same
  have sorted : missingCall.sorted = missingCall.instructions :=
    List.mergeSort_of_pairwise (by decide)
  have linked : missingCall.link =
      .ok ⟨missingCall.instructions.toArray, [("End", 3), ("end", 1)]⟩ := by
    rw [link_eq_ok_iff, sorted]
    exact ⟨rfl, rfl⟩
  obtain ⟨_, runs, defects⟩ := names_of_labels_are_irrelevant inj missingCall
  refine ⟨inj, ?_, ?_⟩
  · have ended : ∃ m : Machine, m.console.outCount = 0 ∧ m.console.errCount = 1 ∧
        missingCall.execute .willing 5 (.fresh []) =
          some ⟨.error (.raised 6 (.flaw (.undefinedLabel "miss"))), m⟩ := by
      rw [execute_eq_ending, outcome_of_link linked]
      exact ⟨_, rfl, rfl, rfl⟩
    obtain ⟨m, out, err, ended⟩ := ended
    obtain ⟨_, _, renamed⟩ := runs .willing 5 (.fresh [])
    rw [ended] at renamed
    exact ⟨m, out, err, ended, renamed⟩
  · rw [defects, Program.defects, sorted]
    rfl

end Program

end ThreeAddress
