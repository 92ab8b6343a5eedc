import Mathlib.Data.List.Nodup
import ThreeAddress.Language.Defect

/-! Which defects the passes over a program report, and when they report none. -/

namespace ThreeAddress.Defect

/-- The defect of an order that exactly one earlier instruction has. -/
def ofRepeat (earlier : List UInt64) (i : Instruction) : List Defect :=
  -- A third occurrence is not reported again.
  if earlier.count i.order = 1 then [⟨i.order, .duplicateOrder, none⟩] else []

/-- The defects of orders and operands behind instructions with the orders in `earlier`. -/
def structuralAfter (earlier : List UInt64) : List Instruction → List Defect
  | [] => []
  | i :: rest => ofRepeat earlier i ++ ofOperands i ++ structuralAfter (i.order :: earlier) rest

/-- The sets of orders seen and reported behind instructions with the orders in `earlier`. -/
structure Tracks (seen reported earlier : List UInt64) : Prop where
  /-- The orders seen are those that occurred. -/
  once : ∀ order, order ∈ seen ↔ 1 ≤ earlier.count order
  /-- The orders reported are those that occurred more than once. -/
  twice : ∀ order, order ∈ reported ↔ 2 ≤ earlier.count order

namespace Tracks

variable {seen reported earlier : List UInt64}

/-- At the beginning no order was seen, and none was reported. -/
theorem nil : Tracks [] [] [] where
  -- Nothing occurs in an empty list.
  once := by simp
  twice := by simp

/-- One more instruction is seen, and reported if its order was seen before. -/
theorem cons (tracks : Tracks seen reported earlier) (next : UInt64) :
    Tracks (seen.insert next) (if next ∈ seen then reported.insert next else reported)
      (next :: earlier) where
  -- Only the order of the instruction is counted once more.
  once order := by
    rw [List.mem_insert_iff, tracks.once, List.count_cons]
    by_cases same : order = next
    · simp [same]
    · simp [same, Ne.symm same]
  twice order := by
    rw [List.count_cons]
    by_cases same : order = next
    · subst same
      rw [if_pos (beq_self_eq_true _)]
      split
      · rename_i known
        have before := (tracks.once order).mp known
        exact iff_of_true List.mem_insert_self (Nat.succ_le_succ before)
      · rename_i unknown
        have before := mt (tracks.once order).mpr unknown
        rw [tracks.twice]
        omega
    · have other : (next == order) = false := beq_false_of_ne (Ne.symm same)
      rw [other, if_neg Bool.false_ne_true, Nat.add_zero, ← tracks.twice]
      split
      · rw [List.mem_insert_iff, or_iff_right same]
      · rfl

/-- An order is reported where it occurs for the second time. -/
theorem ofOrder_eq (tracks : Tracks seen reported earlier) (i : Instruction) :
    ofOrder seen reported i = ofRepeat earlier i := by
  -- An order that was seen and not reported is one that occurred exactly once.
  have second : (i.order ∈ seen ∧ i.order ∉ reported) ↔ earlier.count i.order = 1 := by
    rw [tracks.once, tracks.twice]
    omega
  simp only [ofOrder, ofRepeat, second]

/-- The two sets say no more than what occurred. -/
theorem structuralFrom_eq (tracks : Tracks seen reported earlier) (code : List Instruction) :
    structuralFrom seen reported code = structuralAfter earlier code := by
  -- The sets are kept up with every instruction.
  induction code generalizing seen reported earlier with
  | nil => rfl
  | cons i rest ih => rw [structuralFrom, structuralAfter, tracks.ofOrder_eq, ih (tracks.cons _)]

end Tracks

/-- What is reported for orders and operands depends on the orders that occurred alone. -/
theorem structural_eq_after (code : List Instruction) :
    structural [] code = structuralAfter [] code :=
  -- No instruction stands before the first one.
  Tracks.nil.structuralFrom_eq code

private theorem ofOperands_eq_nil_iff (i : Instruction) : ofOperands i = [] ↔ i.misfit? = none := by
  -- There is one report for a misfit and none without.
  unfold ofOperands
  split <;> simp_all

private theorem ofOrder_eq_nil_iff {seen : List UInt64} {i : Instruction} :
    ofOrder seen [] i = [] ↔ i.order ∉ seen := by
  -- As long as nothing was reported, every order that was seen before is.
  simp [ofOrder]

private theorem structuralFrom_eq_nil_iff {seen : List UInt64} {code : List Instruction}
    (distinct : seen.Nodup) :
    structuralFrom seen [] code = [] ↔
      (∀ i ∈ code, i.misfit? = none) ∧ (code.map Instruction.order ++ seen).Nodup := by
  -- The orders seen so far stay distinct for as long as nothing is reported.
  induction code generalizing seen with
  | nil => simpa [structuralFrom] using distinct
  | cons i rest ih =>
    have moved : (rest.map Instruction.order ++ i.order :: seen).Nodup ↔
        (i.order :: (rest.map Instruction.order ++ seen)).Nodup :=
      List.perm_middle.nodup_iff
    simp only [structuralFrom, List.append_eq_nil_iff, ofOrder_eq_nil_iff,
      ofOperands_eq_nil_iff, List.mem_cons, forall_eq_or_imp, List.map_cons, List.cons_append]
    by_cases known : i.order ∈ seen
    · simp [known]
    · -- A new order joins those seen so far, which are still distinct.
      rw [List.insert_of_not_mem known, if_neg known,
        ih (List.nodup_cons.mpr ⟨known, distinct⟩), moved]
      simp only [known, not_false_eq_true, true_and]
      exact and_assoc.symm

/-- Nothing is wrong with the structure exactly when operands fit and no order repeats. -/
theorem structural_eq_nil_iff {code : List Instruction} : structural [] code = [] ↔
    (∀ i ∈ code, i.misfit? = none) ∧ (code.map Instruction.order).Nodup := by
  -- At the beginning no order was seen.
  rw [structural, structuralFrom_eq_nil_iff List.nodup_nil, List.append_nil]

/-- No label is reported exactly when each is defined once, and none of them was seen before. -/
theorem duplicateLabels_eq_nil_iff {earlier defined : List (String × UInt64)} :
    duplicateLabels earlier defined = [] ↔
      (defined.map Prod.fst).Nodup ∧ ∀ d ∈ defined, earlier.lookup d.1 = none := by
  -- A label that is not reported joins those that were seen.
  induction defined generalizing earlier with
  | nil => simp [duplicateLabels]
  | cons definition rest ih =>
    obtain ⟨name, order⟩ := definition
    cases known : earlier.lookup name with
    | some first =>
      refine iff_of_false (by simp [duplicateLabels, known]) fun ⟨_, others⟩ => ?_
      cases known.symm.trans (others (name, order) List.mem_cons_self)
    | none =>
      have seen (label : String) : List.lookup label ((name, order) :: earlier) = none ↔
          label ≠ name ∧ earlier.lookup label = none := by
        rw [List.lookup_cons]
        split
        · rename_i same
          exact iff_of_false nofun fun both => both.1 (beq_iff_eq.mp same)
        · rename_i differ
          exact (and_iff_right fun same => by simp [same] at differ).symm
      simp only [duplicateLabels, known, ih, seen, List.map_cons, List.nodup_cons, List.mem_map,
        List.forall_mem_cons, true_and]
      constructor
      · rintro ⟨once, others⟩
        refine ⟨⟨?_, once⟩, fun d member => (others d member).2⟩
        rintro ⟨d, member, same⟩
        exact (others d member).1 same
      · rintro ⟨⟨fresh, once⟩, others⟩
        exact ⟨once, fun d member => ⟨fun same => fresh ⟨d, member, same⟩, others d member⟩⟩

private theorem mem_structuralFrom_of_repeated {order : UInt64} {seen reported : List UInt64}
    {code : List Instruction} (unreported : order ∉ reported)
    (repeated : (if order ∈ seen then 1 else 2) ≤ (code.map Instruction.order).count order) :
    ⟨order, .duplicateOrder, none⟩ ∈ structuralFrom seen reported code := by
  -- The report falls at the next occurrence once the order was seen.
  induction code generalizing seen reported with
  | nil =>
    simp only [List.map_nil, List.count_nil] at repeated
    split at repeated <;> omega
  | cons i rest ih =>
    simp only [structuralFrom, List.mem_append]
    rw [List.map_cons, List.count_cons] at repeated
    by_cases same : i.order = order
    · subst same
      by_cases known : i.order ∈ seen
      · exact .inl (.inl (by simp [ofOrder, known, unreported]))
      · -- The first occurrence is remembered and leaves the report to a later one.
        rw [if_neg known] at repeated ⊢
        refine .inr (ih unreported ?_)
        rw [if_pos List.mem_insert_self]
        simp only [beq_self_eq_true, if_true] at repeated
        omega
    · -- Another order changes neither of the sets for this one.
      have other : (i.order == order) = false := beq_false_of_ne same
      rw [other, if_neg Bool.false_ne_true, Nat.add_zero] at repeated
      refine .inr (ih ?_ ?_)
      · split
        · rw [List.mem_insert_iff, not_or]
          exact ⟨Ne.symm same, unreported⟩
        · exact unreported
      · simpa only [List.mem_insert_iff, Ne.symm same, false_or] using repeated

/-- An order that occurs twice is reported. -/
theorem mem_structural_of_repeated {order : UInt64} {code : List Instruction}
    (repeated : 2 ≤ (code.map Instruction.order).count order) :
    ⟨order, .duplicateOrder, none⟩ ∈ structural [] code := by
  -- At the beginning the order was neither seen nor reported.
  apply mem_structuralFrom_of_repeated List.not_mem_nil
  rwa [if_neg List.not_mem_nil]

private theorem mem_structuralFrom_of_misfit {i : Instruction} {m : Misfit}
    {seen reported : List UInt64} {code : List Instruction} (member : i ∈ code)
    (unfit : i.misfit? = some m) :
    ⟨i.order, .misfit i.opcode m, none⟩ ∈ structuralFrom seen reported code := by
  -- The pass looks at the operands of every instruction, whatever it has seen before.
  induction code generalizing seen reported with
  | nil => cases member
  | cons first rest ih =>
    simp only [structuralFrom, List.mem_append]
    -- The instruction itself is looked at now or later.
    rcases List.mem_cons.mp member with rfl | member
    · exact .inl (.inr (by simp [ofOperands, unfit]))
    · exact .inr (ih member)

/-- Operands that do not fit are reported. -/
theorem mem_structural_of_misfit {i : Instruction} {m : Misfit} {code : List Instruction}
    (member : i ∈ code) (unfit : i.misfit? = some m) :
    ⟨i.order, .misfit i.opcode m, none⟩ ∈ structural [] code :=
  mem_structuralFrom_of_misfit member unfit

private theorem structuralFrom_flaw {d : Defect} {seen reported : List UInt64}
    {code : List Instruction} (member : d ∈ structuralFrom seen reported code) (name : String) :
    d.flaw ≠ .undefinedLabel name := by
  -- Each report comes from an order or from operands, and both name another flaw.
  induction code generalizing seen reported with
  | nil => cases member
  | cons i rest ih =>
    simp only [structuralFrom, List.mem_append] at member
    rcases member with (member | member) | member
    · unfold ofOrder at member
      split at member
      · simp only [List.mem_singleton] at member
        simp [member]
      · cases member
    · unfold ofOperands at member
      split at member
      · cases member
      · simp only [List.mem_singleton] at member
        simp [member]
    · exact ih member

private theorem duplicateLabels_flaw {d : Defect} {earlier defined : List (String × UInt64)}
    (member : d ∈ duplicateLabels earlier defined) (name : String) :
    d.flaw ≠ .undefinedLabel name := by
  -- A label is reported only where an earlier definition was found for it.
  induction defined generalizing earlier with
  | nil => cases member
  | cons definition rest ih =>
    rcases definition with ⟨label, order⟩
    simp only [duplicateLabels] at member
    split at member
    · rcases List.mem_cons.mp member with rfl | member
      · simp
      · exact ih member
    · exact ih member

private theorem ofTarget_flaw {d : Defect} {defined : List (String × UInt64)} {i : Instruction}
    (reported : ofTarget defined i = some d) : ∃ name, d.flaw = .undefinedLabel name := by
  -- A report needs a target whose lookup among the definitions fails.
  obtain ⟨name, _, found⟩ := Option.bind_eq_some_iff.mp reported
  split at found
  · cases found
  · cases found
    exact ⟨name, rfl⟩

/-- The definitions of a list of instructions begin with that of the first one. -/
theorem definitions_cons (i : Instruction) (rest : List Instruction) :
    definitions (i :: rest) =
      (i.definedLabel?.map fun name => (name, i.order)).toList ++ definitions rest := by
  -- Each instruction has one entry at most.
  simp only [definitions, List.filterMap_cons]
  cases i.definedLabel? <;> rfl

/-- A jump to a label that no instruction defines is reported. -/
theorem mem_labels_of_undefined {i : Instruction} {name : String} {code : List Instruction}
    (member : i ∈ code) (target : i.targetLabel? = some name)
    (undefined : (definitions code).lookup name = none) :
    ⟨i.order, .undefinedLabel name, none⟩ ∈ labels code := by
  -- Targets are reported behind duplicates, one instruction after another.
  refine List.mem_append_right _ (List.mem_filterMap.mpr ⟨i, member, ?_⟩)
  rw [ofTarget, target, Option.bind_some, undefined]
  rfl

/-- All that is ever reported are missing labels exactly when the other passes find nothing. -/
theorem only_undefined_iff (p : Program) :
    (∀ d ∈ p.defects, ∃ name, d.flaw = .undefinedLabel name) ↔
      structural [] p.instructions = [] ∧ duplicateLabels [] (definitions p.sorted) = [] := by
  -- The three passes are told apart by the flaws that they can report.
  simp only [Program.defects, labels, List.mem_append]
  constructor
  · -- A report of another pass would have to be about a missing label, and none is.
    intro undefined
    constructor
    · refine List.eq_nil_iff_forall_not_mem.mpr fun d member => ?_
      obtain ⟨name, flaw⟩ := undefined d (.inl member)
      exact structuralFrom_flaw member name flaw
    · refine List.eq_nil_iff_forall_not_mem.mpr fun d member => ?_
      obtain ⟨name, flaw⟩ := undefined d (.inr (.inl member))
      exact duplicateLabels_flaw member name flaw
  · rintro ⟨sound, distinct⟩ d (member | member | member)
    · simp [sound] at member
    · simp [distinct] at member
    · -- What is left comes from the pass over jumps.
      obtain ⟨i, _, reported⟩ := List.mem_filterMap.mp member
      exact ofTarget_flaw reported

end ThreeAddress.Defect
