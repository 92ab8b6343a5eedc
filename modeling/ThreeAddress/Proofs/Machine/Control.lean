import ThreeAddress.Proofs.Machine.FailingStep
import ThreeAddress.Proofs.Machine.Linking
import ThreeAddress.Proofs.Machine.Lives
import ThreeAddress.Proofs.Machine.Successes
import ThreeAddress.Proofs.Machine.Typing

/-!
Where control can go. A machine never leaves its image, its call stack holds positions of calls,
and jumps land on the labels that they name, however often a program is executed on it.
-/

namespace ThreeAddress

/-- There is a call at a position of an image. -/
def Image.CallAt (image : Image) (position : Nat) : Prop :=
  ∃ i, image.code[position]? = some i ∧ i.opcode = .call

/-- There is the definition of a label at a position of an image. -/
def Image.LabelAt (image : Image) (name : String) (position : Nat) : Prop :=
  ∃ order, image.code[position]? = some ⟨.label, order, [.label name]⟩

/-- A machine continues at the definition of the label that an instruction names. -/
def Machine.AtLabelOf (m : Machine) (image : Image) (i : Instruction) : Prop :=
  ∃ name, i.operands.head? = some (.label name) ∧ image.LabelAt name m.pc

/-- A machine is within an image if its position is, and if it returns to calls of the image. -/
structure Machine.Within (image : Image) (m : Machine) : Prop where
  pc_le : m.pc ≤ image.code.size
  calls : ∀ position ∈ m.callStack, image.CallAt position

variable {p : Program} {image : Image} {devices : Devices} {m n : Machine} {i : Instruction}

/-- A position at which there is something is within the image. -/
theorem Image.lt_size_of_found {position : Nat} (found : image.code[position]? = some i) :
    position < image.code.size :=
  (Array.getElem?_eq_some_iff.mp found).1

/-- A position at which there is a call is within the image. -/
theorem Image.CallAt.lt_size {position : Nat} (h : image.CallAt position) :
    position < image.code.size := by
  -- An instruction is found there.
  obtain ⟨i, found, _⟩ := h
  exact lt_size_of_found found

/-- The table of an image tells exactly where each label is defined. -/
theorem Program.link_labelAt (linked : p.link = .ok image) (name : String) (position : Nat) :
    image.labels.lookup name = some position ↔ image.LabelAt name position := by
  rw [link_lookup linked]
  constructor
  · rintro ⟨i, found, defined⟩
    -- The operands fit, so that the label is all there is besides the order.
    have fits := fits_of_link linked (mem_of_link linked found)
    obtain ⟨op, operands⟩ := (Instruction.definedLabel?_eq_some_iff fits).mp defined
    refine ⟨i.order, ?_⟩
    rw [found, ← op, ← operands]
  · rintro ⟨order, found⟩
    exact ⟨_, found, rfl⟩

/-- The target of an instruction is the definition of the label that it names. -/
theorem Program.link_target (linked : p.link = .ok image) {position : Nat}
    (target : i.target image.labels = .ok position) :
    ∃ name, i.operands.head? = some (.label name) ∧ image.LabelAt name position := by
  -- The table knows the label, and what it knows are definitions.
  obtain ⟨name, first, known⟩ := Instruction.target_eq_ok_iff.mp target
  exact ⟨name, first, (link_labelAt linked name position).mp known⟩

namespace Machine

/-- Carrying out an effect keeps a machine within its image. -/
theorem Within.carriedOut {effect : Effect} (h : m.Within image) (linked : p.link = .ok image)
    (fetched : image.code[m.pc - 1]? = some i)
    (reduced : i.effect image.labels m.frames = .ok effect)
    (done : CarriedOut devices m i.order effect n) : n.Within image := by
  -- A target is the position of a definition, and so within the image.
  have inside {position : Nat} (goes : effect.target? = some position) :
      position ≤ image.code.size := by
    obtain ⟨name, _, order, found⟩ :=
      Program.link_target linked (Instruction.effect_target reduced goes)
    exact Nat.le_of_lt (Image.lt_size_of_found found)
  cases done with
  | call target =>
    -- The position that is put aside is that of the call itself.
    have op := Opcode.mayHave_call.mp (i.effect_mayHave _ _ _ reduced)
    exact ⟨inside rfl, List.forall_mem_cons.mpr ⟨⟨i, fetched, op⟩, h.calls⟩⟩
  | ret top =>
    have calls := h.calls
    rw [top, List.forall_mem_cons] at calls
    exact ⟨calls.1.lt_size, calls.2⟩
  | jump target => exact ⟨inside rfl, h.calls⟩
  | skip | createFrame | pushFrame | popFrame | declare | assign | receive | push | pop | write
  | dump | exit => exact ⟨h.pc_le, h.calls⟩

/-- A step keeps a machine within its image, whether it succeeds or not. -/
theorem Within.advance (linked : p.link = .ok image) (devices : Devices) (h : m.Within image) :
    (m.advance devices image).machine.Within image := by
  cases fetched : image.code[m.pc]? with
  | none =>
    rw [Machine.advance, fetched]
    exact h
  | some i =>
    -- Fetching moves the position to the end of the image at most.
    have moved : Within image { m with pc := m.pc + 1 } :=
      ⟨Image.lt_size_of_found fetched, h.calls⟩
    have succeeds {outcome : Outcome} {n : Machine} (stepped : m.advance devices image = outcome)
        (done : outcome.Succeeds n) : n.Within image := by
      obtain ⟨effect, after, reduced, carried, rfl⟩ := advance_succeeds fetched (stepped ▸ done)
      have within := moved.carriedOut linked fetched reduced carried
      exact ⟨within.pc_le, within.calls⟩
    cases stepped : m.advance devices image with
    | next n => exact succeeds stepped (.next n)
    | exit code n => exact succeeds stepped (.exit code n)
    | fault fault n =>
      -- A failing step has done no more than fetch.
      rw [Outcome.machine, advance_fault_unchanged stepped]
      exact ⟨moved.pc_le, moved.calls⟩

/-- A call puts its own position aside and continues at its target. -/
theorem advance_call (fetched : image.code[m.pc]? = some i) (op : i.opcode = .call)
    (next : m.advance devices image = .next n) :
    i.target image.labels = .ok n.pc ∧ n.callStack = m.pc :: m.callStack := by
  -- A call has no other effect, and fetching has moved the position by one.
  obtain ⟨effect, after, reduced, carried, rfl⟩ := advance_next fetched next
  have kind := i.effect_mayHave _ _ _ reduced
  rw [op] at kind
  cases carried with
  | call target => exact ⟨Instruction.effect_target reduced rfl, rfl⟩
  | _ => simp [Opcode.mayHave] at kind

/-- A return continues behind the latest call, which it takes off the stack. -/
theorem advance_ret (fetched : image.code[m.pc]? = some i) (op : i.opcode = .ret)
    (next : m.advance devices image = .next n) :
    ∃ position, m.callStack = position :: n.callStack ∧ n.pc = position + 1 := by
  -- A return has no other effect, and it succeeds only if there is a call.
  obtain ⟨effect, after, reduced, carried, rfl⟩ := advance_next fetched next
  have kind := i.effect_mayHave _ _ _ reduced
  rw [op] at kind
  cases carried with
  | ret top => exact ⟨_, top, rfl⟩
  | _ => simp [Opcode.mayHave] at kind

/-- A jump continues at its target. -/
theorem advance_jump (fetched : image.code[m.pc]? = some i) (op : i.opcode = .jump)
    (next : m.advance devices image = .next n) : i.target image.labels = .ok n.pc := by
  -- A jump has no other effect.
  obtain ⟨effect, after, reduced, carried, rfl⟩ := advance_next fetched next
  have kind := i.effect_mayHave _ _ _ reduced
  rw [op] at kind
  cases carried with
  | jump target => exact Instruction.effect_target reduced rfl
  | _ => simp [Opcode.mayHave] at kind

/-- A branch continues behind itself or at its target. -/
theorem advance_branch (fetched : image.code[m.pc]? = some i)
    (op : i.opcode = .jumpIfEq ∨ i.opcode = .jumpIfNeq)
    (next : m.advance devices image = .next n) :
    n.pc = m.pc + 1 ∨ i.target image.labels = .ok n.pc := by
  -- A branch that is not taken has no effect at all.
  obtain ⟨effect, after, reduced, carried, rfl⟩ := advance_next fetched next
  have kind := i.effect_mayHave _ _ _ reduced
  cases carried with
  | skip => exact .inl rfl
  | jump target => exact .inr (Instruction.effect_target reduced rfl)
  | _ => rcases op with op | op <;> simp [op, Opcode.mayHave] at kind

end Machine

namespace Program

variable {input : List UInt8}

private theorem within_fresh : (Machine.fresh input).Within image :=
  -- A new machine stands at the beginning and has called nothing.
  ⟨Nat.zero_le _, by simp [Machine.fresh]⟩

private theorem within_restart (m : Machine) (h : m.Within image) :
    Machine.Within image { m with pc := 0 } :=
  -- The beginning is within every image, and the calls are those from before.
  ⟨Nat.zero_le _, h.calls⟩

/-- Between executions a machine is within the image of its program. -/
theorem LeftBehind.within (linked : p.link = .ok image) (h : p.LeftBehind input m) :
    m.Within image :=
  h.keeps linked within_fresh within_restart fun devices _ within => within.advance linked devices

/-- Whenever it is about to fetch, a machine is within the image of its program. -/
theorem AboutToFetch.within (linked : p.link = .ok image)
    (h : p.AboutToFetch input devices image m) : m.Within image :=
  h.keeps within_fresh within_restart fun devices _ within => within.advance linked devices

private theorem calls_of_within (linked : p.link = .ok image) (h : m.Within image) :
    ∀ position ∈ m.callStack, position < p.instructions.length ∧ image.CallAt position := by
  -- An image has as many instructions as its program.
  intro position member
  rw [← link_size linked]
  exact ⟨(h.calls position member).lt_size, h.calls position member⟩

/--
Control stays within a program that links, however often it is executed on one machine.

The table of labels tells where each label is defined and nothing else, and every restart finds the
same table. Whenever the machine is about to fetch, its position is within the program or right
behind it, and its call stack holds positions of calls. A call puts its own position aside, a return
stays within the program, and jumps land on the label that they name. No operand is ever of the
wrong kind, so that operations which take values of every type never complain about types.
-/
theorem control_stays_within (linked : p.link = .ok image) (input : List UInt8) :
    (∀ name position, image.labels.lookup name = some position ↔ image.LabelAt name position) ∧
    (∀ m, p.LeftBehind input m →
      (∀ position ∈ m.callStack, position < p.instructions.length ∧ image.CallAt position) ∧
        p.start m = .ok (image, { m with pc := 0 })) ∧
    (∀ devices m, p.AboutToFetch input devices image m →
      m.pc ≤ p.instructions.length ∧
      (∀ position ∈ m.callStack, position < p.instructions.length ∧ image.CallAt position) ∧
      ∀ i, image.code[m.pc]? = some i →
        (∀ n, m.advance devices image = .next n →
          (i.opcode = .call → n.callStack = m.pc :: m.callStack ∧ n.AtLabelOf image i) ∧
          (i.opcode = .ret → ∃ position, m.callStack = position :: n.callStack ∧
            n.pc = position + 1 ∧ n.pc ≤ p.instructions.length) ∧
          (i.opcode = .jump → n.AtLabelOf image i) ∧
          (i.opcode = .jumpIfEq ∨ i.opcode = .jumpIfNeq →
            n.pc = m.pc + 1 ∨ n.AtLabelOf image i)) ∧
        (i.opcode.isUntyped = true → ∀ order opcode after,
          m.advance devices image ≠ .fault (.raised order (.wrongTypes opcode)) after)) ∧
    ∀ i ∈ p.instructions, i.InPlace image.labels := by
  refine ⟨link_labelAt linked, ?_, ?_, ?_⟩
  · intro m left
    exact ⟨calls_of_within linked (left.within linked), start_eq_ok_iff.mpr ⟨linked, rfl⟩⟩
  · intro devices m fetching
    have within := fetching.within linked
    refine ⟨link_size linked ▸ within.pc_le, calls_of_within linked within, ?_⟩
    intro i fetched
    refine ⟨?_, ?_⟩
    · intro n next
      refine ⟨?_, ?_, ?_, ?_⟩
      · intro op
        obtain ⟨target, pushed⟩ := Machine.advance_call fetched op next
        exact ⟨pushed, link_target linked target⟩
      · intro op
        obtain ⟨position, top, behind⟩ := Machine.advance_ret fetched op next
        -- The machine after the step is within the image as well.
        have after := (fetching.stepped next).within linked
        exact ⟨position, top, behind, link_size linked ▸ after.pc_le⟩
      · intro op
        exact link_target linked (Machine.advance_jump fetched op next)
      · intro op
        exact (Machine.advance_branch fetched op next).imp_right (link_target linked)
    · intro untyped order opcode after failed
      have fits := fits_of_link linked (mem_of_link linked fetched)
      exact Machine.advance_wellTyped fetched fits untyped failed
  · intro i member
    exact Instruction.inPlace_of_fits (fits_of_link linked member) image.labels

/-- A program that fails inside a call, because there is no frame to take back. -/
def brokenCall : Program :=
  { instructions := [⟨.call, 1, [.label "f"]⟩, ⟨.label, 2, [.label "f"]⟩, ⟨.popFrame, 3, []⟩] }

/-- The program that fails inside a call, ready to run. -/
def brokenCallImage : Image :=
  { code := brokenCall.instructions.toArray, labels := [("f", 1)] }

/-- After two executions that failed inside a call, the call stack holds that call twice. -/
theorem control_stays_within_of_brokenCall :
    brokenCall.link = .ok brokenCallImage ∧
    ∃ m, brokenCall.LeftBehind [] m ∧ m.callStack = [0, 0] ∧
      ∀ position ∈ m.callStack,
        position < brokenCall.instructions.length ∧ brokenCallImage.CallAt position := by
  have sorted : brokenCall.sorted = brokenCall.instructions :=
    List.mergeSort_of_pairwise (by decide)
  have linked : brokenCall.link = .ok brokenCallImage := by
    rw [link_eq_ok_iff, sorted]
    exact ⟨rfl, rfl⟩
  -- Each execution links, calls, passes the label and fails.
  let failed : Except Fault Nat := .error (.raised 3 (.frame (.missing .localFrame)))
  let once :=
    { Machine.fresh [] with callStack := [0], pc := 3, executed := 1, last := some .label }
  let twice := { once with callStack := [0, 0], executed := 2 }
  have first : brokenCall.execute .willing 3 (.fresh []) = some ⟨failed, once⟩ := by
    rw [execute, start_eq_ok_iff.mpr ⟨linked, rfl⟩]
    rfl
  have second : brokenCall.execute .willing 3 once = some ⟨failed, twice⟩ := by
    rw [execute, start_eq_ok_iff.mpr ⟨linked, rfl⟩]
    rfl
  have left : brokenCall.LeftBehind [] twice := .executed (.executed .fresh first) second
  exact ⟨linked, twice, left, rfl, ((control_stays_within linked []).2.1 twice left).1⟩

end Program

end ThreeAddress
