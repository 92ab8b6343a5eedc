import ThreeAddress.Proofs.Language.Defects
import ThreeAddress.Proofs.Language.Signature
import ThreeAddress.Proofs.Language.Sorted

/-!
What is wrong with a program, told by places. The passes over a program remember what they have
seen, and their reports are exactly what is wrong at each place, once and in sequence.
-/

namespace ThreeAddress

namespace Instruction

/-- An instruction defines a label. -/
def Defines (i : Instruction) (name : String) : Prop :=
  i.opcode = .label ∧ i.operands.head? = some (.label name)

/-- An instruction may continue at a label. -/
def Targets (i : Instruction) (name : String) : Prop :=
  i.opcode ∈ [.call, .jump, .jumpIfEq, .jumpIfNeq] ∧ i.operands.head? = some (.label name)

variable {i : Instruction} {name : String}

private theorem label?_eq_some_iff : i.label? = some name ↔
    (i.opcode = .label ∨ i.opcode.isJump = true) ∧ i.operands.head? = some (.label name) := by
  -- The operation decides whether the first operand is looked at.
  unfold Instruction.label?
  split
  · rename_i among
    rw [Bool.or_eq_true, decide_eq_true_eq] at among
    cases i.operands with
    | nil => simp
    | cons o rest => cases o <;> simp [among]
  · rename_i other
    rw [Bool.or_eq_true, decide_eq_true_eq] at other
    simp [other]

/-- The label that an instruction defines is the first operand of a definition. -/
theorem definedLabel?_iff : i.definedLabel? = some name ↔ i.Defines name := by
  -- Both sides ask for the operation first and then for the label in front.
  unfold Instruction.definedLabel? Defines
  split
  · rename_i op
    simp [label?_eq_some_iff, op]
  · rename_i other
    simp [other]

/-- The label that an instruction may continue at is the first operand of a jump or a call. -/
theorem targetLabel?_iff : i.targetLabel? = some name ↔ i.Targets name := by
  -- The operations that continue elsewhere are told apart from the others first.
  have jumps : i.opcode.isJump = true ↔ i.opcode ∈ [.call, .jump, .jumpIfEq, .jumpIfNeq] := by
    cases i.opcode <;> decide
  unfold Instruction.targetLabel? Targets
  rw [← jumps]
  split
  · rename_i op
    simp [label?_eq_some_iff, op]
  · rename_i other
    simp [other]

end Instruction

/--
A check of one instruction, whose place is counted from zero: among the instructions as they were
read for its order and its operands, and among the sorted ones for its label.
-/
inductive Check where
  | order (place : Nat)
  | operands (place : Nat)
  | definition (place : Nat)
  | target (place : Nat)
  deriving DecidableEq, Repr

/-- One check is made before another one. -/
def Check.Before : Check → Check → Prop
  | order k, order l => k < l
  | order k, operands l => k ≤ l
  | operands k, order l => k < l
  | operands k, operands l => k < l
  | order _, definition _ => True
  | order _, target _ => True
  | operands _, definition _ => True
  | operands _, target _ => True
  | definition k, definition l => k < l
  | definition _, target _ => True
  | target k, target l => k < l
  | _, _ => False

/-- Definitions are checked from place to place. -/
@[simp] theorem Check.definition_before {k l : Nat} :
    (definition k).Before (definition l) ↔ k < l :=
  Iff.rfl

/-- Targets are checked from place to place. -/
@[simp] theorem Check.target_before {k l : Nat} : (target k).Before (target l) ↔ k < l :=
  Iff.rfl

/-- What a check of a program finds wrong. -/
inductive Program.Finds (p : Program) : Check → Defect → Prop where
  /-- One earlier instruction has the same order, and no other earlier one has. -/
  | repeatedOrder {place earlier : Nat} {i j : Instruction}
      (here : p.instructions[place]? = some i) (there : p.instructions[earlier]? = some j)
      (before : earlier < place) (same : j.order = i.order)
      (only : ∀ k l, k < place → p.instructions[k]? = some l → l.order = i.order → k = earlier) :
      Finds p (.order place) ⟨i.order, .duplicateOrder, none⟩
  /-- There are more or fewer operands than slots. -/
  | operandCount {place : Nat} {i : Instruction} (here : p.instructions[place]? = some i)
      (differ : i.operands.length ≠ i.opcode.signature.length) :
      Finds p (.operands place)
        ⟨i.order, .misfit i.opcode (.count i.opcode.signature.length i.operands.length), none⟩
  /-- There are as many operands as slots, and the one at the index is the first that is refused. -/
  | wrongOperand {place index : Nat} {slot : Slot} {i : Instruction}
      (here : p.instructions[place]? = some i)
      (same : i.operands.length = i.opcode.signature.length)
      (refused : FirstRefused i.opcode.signature i.operands index slot) :
      Finds p (.operands place) ⟨i.order, .misfit i.opcode (.slot (1 + index) slot), none⟩
  /-- An earlier instruction defines the same label, and none before that one does. -/
  | repeatedLabel {place earlier : Nat} {name : String} {i j : Instruction}
      (here : p.sorted[place]? = some i) (defines : i.Defines name)
      (there : p.sorted[earlier]? = some j) (before : earlier < place) (also : j.Defines name)
      (first : ∀ k l, k < earlier → p.sorted[k]? = some l → ¬ l.Defines name) :
      Finds p (.definition place) ⟨i.order, .duplicateLabel name, some j.order⟩
  /-- No instruction defines the label. -/
  | missingLabel {place : Nat} {name : String} {i : Instruction}
      (here : p.sorted[place]? = some i) (targets : i.Targets name)
      (missing : ∀ j ∈ p.instructions, ¬ j.Defines name) :
      Finds p (.target place) ⟨i.order, .undefinedLabel name, none⟩

section Scan

variable {α β : Type}

/-- Reports on the instructions of a sequence, each in view of those before it. -/
def scan (report : List Instruction → Instruction → List α) (before : List Instruction) :
    List Instruction → List α
  | [] => []
  | i :: rest => report before i ++ scan report (before ++ [i]) rest

variable {report : List Instruction → Instruction → List α} {before code : List Instruction}

/-- What is made of all reports is made of each. -/
theorem map_scan (f : α → β) :
    (scan report before code).map f =
      scan (fun earlier i => (report earlier i).map f) before code := by
  -- Reports come one instruction after another, and so does what is made of them.
  induction code generalizing before with
  | nil => rfl
  | cons i rest ih => rw [scan, scan, List.map_append, ih]

/-- Whatever is reported is reported on the instruction at some place, in view of those before. -/
theorem mem_scan {a : α} : a ∈ scan report before code ↔
    ∃ k i, code[k]? = some i ∧ a ∈ report (before ++ code.take k) i := by
  -- The place counts on by one for each instruction that the scan has passed.
  induction code generalizing before with
  | nil => simp [scan]
  | cons i rest ih =>
    rw [scan, List.mem_append, ih]
    constructor
    · rintro (now | ⟨k, j, there, later⟩)
      · exact ⟨0, i, rfl, by simpa using now⟩
      · exact ⟨k + 1, j, there, by simpa using later⟩
    · rintro ⟨k, j, there, reported⟩
      cases k with
      | zero =>
        cases there
        exact .inl (by simpa using reported)
      | succ k => exact .inr ⟨k, j, there, by simpa using reported⟩

/-- Reports are in sequence if those on one instruction are, and all precede those on later ones. -/
theorem pairwise_scan {R : α → α → Prop}
    (within : ∀ earlier i, (report earlier i).Pairwise R)
    (across : ∀ earlier i later j, earlier.length < later.length →
      ∀ a ∈ report earlier i, ∀ b ∈ report later j, R a b) :
    (scan report before code).Pairwise R := by
  -- Reports on later instructions are made in view of more instructions before them.
  induction code generalizing before with
  | nil => exact List.Pairwise.nil
  | cons i rest ih =>
    refine List.pairwise_append.mpr ⟨within before i, ih, ?_⟩
    intro a now b later
    obtain ⟨k, j, _, reported⟩ := mem_scan.mp later
    exact across before i _ j (by simp) a now b reported

end Scan

namespace Defect

private theorem structuralAfter_eq_scan {earlier : List UInt64} {before : List Instruction}
    (seen : ∀ order, earlier.count order = (before.map Instruction.order).count order)
    (code : List Instruction) :
    structuralAfter earlier code =
      scan (fun before i => ofRepeat (before.map Instruction.order) i ++ ofOperands i)
        before code := by
  -- How often an order was seen is all that matters of the earlier ones.
  induction code generalizing earlier before with
  | nil => rfl
  | cons i rest ih =>
    -- The pass puts the latest order in front and the scan behind, which counts the same.
    have later : ∀ order, (i.order :: earlier).count order =
        ((before ++ [i]).map Instruction.order).count order := by
      intro order
      rw [List.map_append, List.count_append, List.count_cons, seen order]
      simp [List.count_cons]
    rw [structuralAfter, scan, ih later, ofRepeat, ofRepeat, seen i.order]

/-- The pass over orders and operands reports on each instruction in view of the earlier orders. -/
theorem structural_eq_scan (code : List Instruction) : structural [] code =
    scan (fun before i => ofRepeat (before.map Instruction.order) i ++ ofOperands i) [] code := by
  -- The sets of the pass amount to counts of the earlier orders, and at first there are none.
  rw [structural_eq_after]
  exact structuralAfter_eq_scan (by simp) code

/-- The report on a definition of a label that was defined before. -/
def ofDefinition (before : List Instruction) (i : Instruction) : Option Defect :=
  i.definedLabel?.bind fun name =>
    (before.find? fun j => j.definedLabel? = some name).map fun j =>
      ⟨i.order, .duplicateLabel name, some j.order⟩

/-- The pass over definitions reports on each instruction in view of the earlier definitions. -/
theorem duplicateLabels_eq_scan {earlier : List (String × UInt64)} {before : List Instruction}
    (seen : ∀ name, earlier.lookup name =
      (before.find? fun j => j.definedLabel? = some name).map Instruction.order)
    (code : List Instruction) :
    duplicateLabels earlier (definitions code) =
      scan (fun before i => (ofDefinition before i).toList) before code := by
  induction code generalizing earlier before with
  | nil => rfl
  | cons i rest ih =>
    rw [definitions_cons, scan, ofDefinition]
    cases defined : i.definedLabel? with
    | none =>
      -- What defines nothing is passed over, and is not found later.
      refine ih fun name => ?_
      rw [seen name, List.find?_append]
      simp [defined]
    | some label =>
      simp only [Option.map_some, Option.toList_some, List.singleton_append, duplicateLabels,
        seen label, Option.bind_some]
      cases found : before.find? fun j => j.definedLabel? = some label with
      | some first =>
        -- The first definition is remembered, and not this one.
        refine congrArg _ (ih fun name => ?_)
        rw [seen name, List.find?_append]
        by_cases same : label = name
        · subst same
          simp [found]
        · simp [defined, same]
      | none =>
        refine ih fun name => ?_
        rw [List.lookup_cons, List.find?_append, seen name]
        by_cases same : label = name
        · subst same
          simp [found, defined]
        · simp [defined, same, beq_false_of_ne (Ne.symm same)]

/-- The pass over jumps reports on each instruction, whatever comes before it. -/
theorem targets_eq_scan (defined : List (String × UInt64)) (before code : List Instruction) :
    code.filterMap (ofTarget defined) =
      scan (fun _ i => (ofTarget defined i).toList) before code := by
  -- The report on a jump does not ask what comes before it.
  induction code generalizing before with
  | nil => rfl
  | cons i rest ih =>
    rw [scan, ← ih, List.filterMap_cons]
    cases ofTarget defined i <;> rfl

end Defect

/-- An order is not among the first ones exactly if none of these places has it. -/
theorem not_mem_take_iff {code : List Instruction} {place : Nat} {order : UInt64} :
    order ∉ (code.take place).map Instruction.order ↔
      ∀ k l, k < place → code[k]? = some l → l.order ≠ order := by
  -- To be among the first ones is to stand at a place before the given one.
  constructor
  · intro absent k l small there same
    refine absent (List.mem_map.mpr ⟨l, List.mem_iff_getElem?.mpr ⟨k, ?_⟩, same⟩)
    rw [List.getElem?_take, if_pos small, there]
  · intro differ member
    obtain ⟨l, member, same⟩ := List.mem_map.mp member
    obtain ⟨k, there⟩ := List.mem_iff_getElem?.mp member
    rw [List.getElem?_take] at there
    split at there
    · rename_i small
      exact differ k l small there same
    · cases there

/-- An order is counted once among the first instructions if exactly one of these places has it. -/
theorem count_take_eq_one_iff {code : List Instruction} {place : Nat} {order : UInt64} :
    ((code.take place).map Instruction.order).count order = 1 ↔
      ∃ earlier j, earlier < place ∧ code[earlier]? = some j ∧ j.order = order ∧
        ∀ k l, k < place → code[k]? = some l → l.order = order → k = earlier := by
  -- Each instruction is taken off the front, and counts or leaves the question to the others.
  induction code generalizing place with
  | nil => simp
  | cons i rest ih =>
    cases place with
    | zero => simp
    | succ place =>
      rw [List.take_succ_cons, List.map_cons]
      by_cases same : i.order = order
      · subst same
        rw [List.count_cons_self, Nat.add_eq_right, List.count_eq_zero, not_mem_take_iff]
        constructor
        · intro differ
          refine ⟨0, i, Nat.succ_pos place, rfl, rfl, ?_⟩
          intro k l small there same
          cases k with
          | zero => rfl
          | succ k => exact absurd same (differ k l (Nat.lt_of_succ_lt_succ small) there)
        · rintro ⟨earlier, j, _, _, _, only⟩ k l small there same
          -- Both this place and the later one would be the only one.
          have first := only 0 i (Nat.succ_pos place) rfl rfl
          have second := only (k + 1) l (Nat.succ_lt_succ small) there same
          omega
      · rw [List.count_cons_of_ne same, ih]
        constructor
        · rintro ⟨earlier, j, before, there, equal, only⟩
          refine ⟨earlier + 1, j, Nat.succ_lt_succ before, there, equal, ?_⟩
          intro k l small among also
          cases k with
          | zero =>
            cases among
            exact absurd also same
          | succ k => rw [only k l (Nat.lt_of_succ_lt_succ small) among also]
        · rintro ⟨earlier, j, before, there, equal, only⟩
          cases earlier with
          | zero =>
            cases there
            exact absurd equal same
          | succ earlier =>
            refine ⟨earlier, j, Nat.lt_of_succ_lt_succ before, there, equal, ?_⟩
            intro k l small among also
            exact Nat.succ.inj (only (k + 1) l (Nat.succ_lt_succ small) among also)

/-- What is found among the first instructions is the first one that defines a label. -/
theorem find?_take_eq_some_iff {code : List Instruction} {place : Nat} {name : String}
    {j : Instruction} :
    ((code.take place).find? fun l => l.definedLabel? = some name) = some j ↔
      ∃ earlier < place, code[earlier]? = some j ∧ j.Defines name ∧
        ∀ k l, k < earlier → code[k]? = some l → ¬ l.Defines name := by
  -- The search goes from the front, so that no earlier place has what it finds.
  rw [List.find?_eq_some_iff_getElem]
  simp only [decide_eq_true_eq, Bool.not_eq_true', decide_eq_false_iff_not,
    Instruction.definedLabel?_iff, List.getElem_take]
  constructor
  · rintro ⟨defines, earlier, small, there, first⟩
    rw [List.length_take] at small
    refine ⟨earlier, by omega, List.getElem?_eq_some_iff.mpr ⟨by omega, there⟩, defines, ?_⟩
    intro k l before among
    obtain ⟨_, rfl⟩ := List.getElem?_eq_some_iff.mp among
    exact first k before
  · rintro ⟨earlier, before, there, defines, first⟩
    obtain ⟨small, there⟩ := List.getElem?_eq_some_iff.mp there
    refine ⟨defines, earlier, by rw [List.length_take]; omega, there, ?_⟩
    intro k among
    exact first k _ among (List.getElem?_eq_getElem (by omega))

/-- A label is among the definitions exactly if an instruction defines it. -/
theorem isSome_lookup_definitions_iff {code : List Instruction} {name : String} :
    ((Defect.definitions code).lookup name).isSome = true ↔ ∃ j ∈ code, j.Defines name := by
  -- The definitions hold one entry for each instruction that defines a label.
  rw [List.lookup_isSome_iff]
  simp only [Defect.definitions, List.mem_filterMap, Option.map_eq_some_iff, beq_iff_eq,
    ← Instruction.definedLabel?_iff]
  constructor
  · rintro ⟨_, ⟨j, member, _, defined, rfl⟩, rfl⟩
    exact ⟨j, member, defined⟩
  · rintro ⟨j, member, defined⟩
    exact ⟨_, ⟨j, member, name, defined, rfl⟩, rfl⟩

/-- A jump is reported exactly if no instruction defines its label. -/
theorem ofTarget_eq_some_iff {code : List Instruction} {i : Instruction} {d : Defect} :
    Defect.ofTarget (Defect.definitions code) i = some d ↔
      ∃ name, i.Targets name ∧ (∀ j ∈ code, ¬ j.Defines name) ∧
        d = ⟨i.order, .undefinedLabel name, none⟩ := by
  -- The label of a jump is looked up, and the report is about a lookup in vain.
  unfold Defect.ofTarget
  rw [Option.bind_eq_some_iff]
  refine exists_congr fun name => ?_
  rw [Instruction.targetLabel?_iff]
  refine and_congr_right fun _ => ?_
  split
  · rename_i defined
    obtain ⟨j, member, defines⟩ := isSome_lookup_definitions_iff.mp defined
    exact iff_of_false nofun fun h => h.1 j member defines
  · rename_i missing
    have absent : ∀ j ∈ code, ¬ j.Defines name := fun j member defines =>
      missing (isSome_lookup_definitions_iff.mpr ⟨j, member, defines⟩)
    rw [Option.some.injEq, eq_comm, and_iff_right absent]

namespace Program

variable {p : Program} {place : Nat} {d : Defect}

/-- The check of an order finds what the pass over orders reports. -/
theorem finds_order_iff : p.Finds (.order place) d ↔
    ∃ i, p.instructions[place]? = some i ∧
      d ∈ Defect.ofRepeat ((p.instructions.take place).map Instruction.order) i := by
  -- An order counts once before a place exactly if one earlier place has it.
  constructor
  · intro found
    cases found with
    | @repeatedOrder _ earlier i j here there before same only =>
      have once := count_take_eq_one_iff.mpr ⟨earlier, j, before, there, same, only⟩
      exact ⟨i, here, by rw [Defect.ofRepeat, if_pos once]; exact List.mem_singleton_self _⟩
  · rintro ⟨i, here, reported⟩
    unfold Defect.ofRepeat at reported
    split at reported
    · rename_i once
      obtain ⟨earlier, j, before, there, same, only⟩ := count_take_eq_one_iff.mp once
      rw [List.mem_singleton.mp reported]
      exact .repeatedOrder here there before same only
    · cases reported

/-- The check of operands finds what the pass over operands reports. -/
theorem finds_operands_iff : p.Finds (.operands place) d ↔
    ∃ i, p.instructions[place]? = some i ∧ d ∈ Defect.ofOperands i := by
  -- A misfit is a wrong number of operands or else the first operand of a wrong kind.
  constructor
  · intro found
    cases found with
    | @operandCount _ i here differ =>
      have unfit := Instruction.misfit?_eq_some_iff.mpr (.inl ⟨differ, rfl⟩)
      exact ⟨i, here, by rw [Defect.ofOperands, unfit]; exact List.mem_singleton_self _⟩
    | @wrongOperand _ index slot i here same refused =>
      have unfit := Instruction.misfit?_eq_some_iff.mpr (.inr ⟨same, index, slot, rfl, refused⟩)
      exact ⟨i, here, by rw [Defect.ofOperands, unfit]; exact List.mem_singleton_self _⟩
  · rintro ⟨i, here, reported⟩
    unfold Defect.ofOperands at reported
    split at reported
    · cases reported
    · rename_i m unfit
      rw [List.mem_singleton.mp reported]
      rcases Instruction.misfit?_eq_some_iff.mp unfit with ⟨differ, rfl⟩ | ⟨same, _, _, rfl, first⟩
      · exact .operandCount here differ
      · exact .wrongOperand here same first

/-- The check of a definition finds what the pass over definitions reports. -/
theorem finds_definition_iff : p.Finds (.definition place) d ↔
    ∃ i, p.sorted[place]? = some i ∧ Defect.ofDefinition (p.sorted.take place) i = some d := by
  -- The earlier definition is the first one that is found among those before the place.
  simp only [Defect.ofDefinition, Option.bind_eq_some_iff, Option.map_eq_some_iff,
    find?_take_eq_some_iff, Instruction.definedLabel?_iff]
  constructor
  · intro found
    cases found with
    | @repeatedLabel _ earlier name i j here defines there before also first =>
      exact ⟨i, here, name, defines, j, ⟨earlier, before, there, also, first⟩, rfl⟩
  · rintro ⟨i, here, name, defines, j, ⟨earlier, before, there, also, first⟩, rfl⟩
    exact .repeatedLabel here defines there before also first

/-- The check of a target finds what the pass over jumps reports. -/
theorem finds_target_iff : p.Finds (.target place) d ↔
    ∃ i, p.sorted[place]? = some i ∧ Defect.ofTarget (Defect.definitions p.sorted) i = some d := by
  -- Sorting moves instructions about, but it neither adds nor loses definitions.
  constructor
  · intro found
    cases found with
    | @missingLabel _ name i here targets missing =>
      refine ⟨i, here, ofTarget_eq_some_iff.mpr ⟨name, targets, ?_, rfl⟩⟩
      exact fun j member => missing j (mem_sorted.mp member)
  · rintro ⟨i, here, reported⟩
    obtain ⟨name, targets, missing, rfl⟩ := ofTarget_eq_some_iff.mp reported
    exact .missingLabel here targets fun j member => missing j (mem_sorted.mpr member)

/-- The findings of the checks of an order and of operands. -/
def structuralFound (before : List Instruction) (i : Instruction) : List (Check × Defect) :=
  (Defect.ofRepeat (before.map Instruction.order) i).map (Prod.mk (.order before.length)) ++
    (Defect.ofOperands i).map (Prod.mk (.operands before.length))

/-- The finding of a check of a label, where there is one report at most. -/
def labelFound (check : Nat → Check) (report : List Instruction → Instruction → Option Defect)
    (before : List Instruction) (i : Instruction) : List (Check × Defect) :=
  (report before i).toList.map (Prod.mk (check before.length))

/-- The findings of all checks of a program, as the passes over it come upon them. -/
def found (p : Program) : List (Check × Defect) :=
  scan structuralFound [] p.instructions ++
    scan (labelFound .definition Defect.ofDefinition) [] p.sorted ++
    scan (labelFound .target fun _ => Defect.ofTarget (Defect.definitions p.sorted)) [] p.sorted

/-- What is found is what is reported. -/
theorem map_snd_found (p : Program) : p.found.map Prod.snd = p.defects := by
  have untagged (check : Check) (l : List Defect) : (l.map (Prod.mk check)).map Prod.snd = l :=
    List.map_map.trans (List.map_id l)
  -- All passes begin with nothing seen.
  have orders := Defect.structural_eq_scan p.instructions
  have repeats : Defect.duplicateLabels [] (Defect.definitions p.sorted) = scan _ [] p.sorted :=
    Defect.duplicateLabels_eq_scan (by simp) p.sorted
  simp only [found, structuralFound, labelFound, List.map_append, map_scan, untagged]
  rw [defects, Defect.labels, orders, repeats, Defect.targets_eq_scan _ [], List.append_assoc]

/-- What is found by a check is wrong at its place. -/
theorem mem_found {check : Check} : (check, d) ∈ p.found ↔ p.Finds check d := by
  -- The instruction at a place has as many before it.
  have length {code : List Instruction} {k : Nat} {i : Instruction} (there : code[k]? = some i) :
      (code.take k).length = k := by
    obtain ⟨small, _⟩ := List.getElem?_eq_some_iff.mp there
    rw [List.length_take]
    omega
  simp only [found, structuralFound, labelFound, List.mem_append, mem_scan, List.mem_map,
    Option.mem_toList, List.nil_append, Prod.mk.injEq]
  constructor
  · rintro ((⟨k, i, there, ⟨e, reported, rfl, rfl⟩ | ⟨e, reported, rfl, rfl⟩⟩ |
      ⟨k, i, there, e, reported, rfl, rfl⟩) | ⟨k, i, there, e, reported, rfl, rfl⟩)
    · rw [length there]
      exact finds_order_iff.mpr ⟨i, there, reported⟩
    · rw [length there]
      exact finds_operands_iff.mpr ⟨i, there, reported⟩
    · rw [length there]
      exact finds_definition_iff.mpr ⟨i, there, reported⟩
    · rw [length there]
      exact finds_target_iff.mpr ⟨i, there, reported⟩
  · intro wrong
    cases check with
    | order k =>
      obtain ⟨i, there, reported⟩ := finds_order_iff.mp wrong
      exact .inl (.inl ⟨k, i, there, .inl ⟨d, reported, by rw [length there], rfl⟩⟩)
    | operands k =>
      obtain ⟨i, there, reported⟩ := finds_operands_iff.mp wrong
      exact .inl (.inl ⟨k, i, there, .inr ⟨d, reported, by rw [length there], rfl⟩⟩)
    | definition k =>
      obtain ⟨i, there, reported⟩ := finds_definition_iff.mp wrong
      exact .inl (.inr ⟨k, i, there, d, reported, by rw [length there], rfl⟩)
    | target k =>
      obtain ⟨i, there, reported⟩ := finds_target_iff.mp wrong
      exact .inr ⟨k, i, there, d, reported, by rw [length there], rfl⟩

private theorem check_of_structural {before : List Instruction} {i : Instruction}
    {a : Check × Defect} (member : a ∈ structuralFound before i) :
    a.1 = .order before.length ∨ a.1 = .operands before.length := by
  -- Each of the two parts has one check for all that it finds.
  rcases List.mem_append.mp member with member | member
  · obtain ⟨_, _, rfl⟩ := List.mem_map.mp member
    exact .inl rfl
  · obtain ⟨_, _, rfl⟩ := List.mem_map.mp member
    exact .inr rfl

private theorem check_of_tagged {check : Check} {l : List Defect} {a : Check × Defect}
    (member : a ∈ l.map (Prod.mk check)) : a.1 = check := by
  -- All that is tagged gets the same tag.
  obtain ⟨_, _, rfl⟩ := List.mem_map.mp member
  rfl

private theorem pairwise_structural (before : List Instruction) (i : Instruction) :
    (structuralFound before i).Pairwise fun a b => a.1.Before b.1 := by
  -- There is one report on an order at most, and then one on operands at most.
  refine List.pairwise_append.mpr ⟨?_, ?_, ?_⟩
  · unfold Defect.ofRepeat
    split
    · exact List.pairwise_singleton _ _
    · exact List.Pairwise.nil
  · unfold Defect.ofOperands
    split
    · exact List.Pairwise.nil
    · exact List.pairwise_singleton _ _
  · intro a first b second
    rw [check_of_tagged first, check_of_tagged second]
    exact Nat.le_refl _

private theorem pairwise_label {check : Nat → Check}
    (forward : ∀ k l, k < l → (check k).Before (check l))
    (report : List Instruction → Instruction → Option Defect) (code : List Instruction) :
    (scan (labelFound check report) [] code).Pairwise fun a b => a.1.Before b.1 := by
  -- At most one thing is found at a place, and later places have later checks.
  refine pairwise_scan ?_ ?_
  · -- One report is in sequence, and so is none.
    intro before i
    unfold labelFound
    cases report before i with
    | none => exact List.Pairwise.nil
    | some d => exact List.pairwise_singleton _ _
  · intro before i later j earlier a first b second
    rw [check_of_tagged first, check_of_tagged second]
    exact forward _ _ earlier

/-- The findings are in the sequence of the checks. -/
theorem pairwise_found (p : Program) : (p.found.map Prod.fst).Pairwise Check.Before := by
  -- Each pass goes from place to place, and the passes follow one another.
  have structural :
      (scan structuralFound [] p.instructions).Pairwise fun a b => a.1.Before b.1 := by
    refine pairwise_scan pairwise_structural ?_
    intro before i later j earlier a first b second
    rcases check_of_structural first with a | a <;> rcases check_of_structural second with b | b <;>
      rw [a, b]
    · exact earlier
    · exact Nat.le_of_lt earlier
    · exact earlier
    · exact earlier
  have definitions := pairwise_label (fun _ _ => Check.definition_before.mpr)
    Defect.ofDefinition p.sorted
  have targets := pairwise_label (fun _ _ => Check.target_before.mpr)
    (fun _ => Defect.ofTarget (Defect.definitions p.sorted)) p.sorted
  rw [List.pairwise_map, found]
  refine List.pairwise_append.mpr
    ⟨List.pairwise_append.mpr ⟨structural, definitions, ?_⟩, targets, ?_⟩
  · intro a first b second
    obtain ⟨_, _, _, first⟩ := mem_scan.mp first
    obtain ⟨_, _, _, second⟩ := mem_scan.mp second
    rw [check_of_tagged second]
    rcases check_of_structural first with a | a <;> rw [a] <;> exact trivial
  · intro a first b second
    obtain ⟨_, _, _, second⟩ := mem_scan.mp second
    rw [check_of_tagged second]
    rcases List.mem_append.mp first with first | first
    · obtain ⟨_, _, _, first⟩ := mem_scan.mp first
      rcases check_of_structural first with a | a <;> rw [a] <;> exact trivial
    · obtain ⟨_, _, _, first⟩ := mem_scan.mp first
      rw [check_of_tagged first]
      exact trivial

/--
The defects of a program are what is wrong at each place, reported once and in sequence.

First come the instructions as they were read, and for each of them an order that exactly one
earlier instruction has, and then operands in the wrong number or the first that does not fit. Then
come the sorted instructions for labels that were defined before, with the order of the first
definition, and once more for labels that are defined nowhere. Nothing is reported exactly if
nothing is wrong.
-/
theorem defects_report_findings (p : Program) :
    (∃ found : List (Check × Defect),
      found.map Prod.snd = p.defects ∧ (found.map Prod.fst).Pairwise Check.Before ∧
        ∀ check d, (check, d) ∈ found ↔ p.Finds check d) ∧
    (p.defects = [] ↔ ∀ check d, ¬ p.Finds check d) := by
  -- The list of findings is the tagged form of what the passes report.
  refine ⟨⟨p.found, p.map_snd_found, p.pairwise_found, fun check d => mem_found⟩, ?_⟩
  rw [← p.map_snd_found, List.map_eq_nil_iff, List.eq_nil_iff_forall_not_mem]
  exact ⟨fun none check d wrong => none _ (mem_found.mpr wrong),
    fun none a member => none a.1 a.2 (mem_found.mp member)⟩

end Program

end ThreeAddress
