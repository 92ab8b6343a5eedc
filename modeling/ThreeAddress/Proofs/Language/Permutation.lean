import Mathlib.Data.List.Basic
import ThreeAddress.Proofs.Language.Defects
import ThreeAddress.Proofs.Language.Reordering

/-!
The same instructions in another sequence. Sorting leaves a choice only among instructions of one
order, so what is made of sorted instructions has to bear that neighbours of one order trade places.
-/

namespace ThreeAddress

namespace Instruction

/-- One sequence becomes another as neighbours of one order trade places, again and again. -/
inductive Exchanged : List Instruction → List Instruction → Prop where
  | refl (code : List Instruction) : Exchanged code code
  | cons (i : Instruction) {code other : List Instruction} (rest : Exchanged code other) :
      Exchanged (i :: code) (i :: other)
  | swap {i j : Instruction} (same : i.order = j.order) (rest : List Instruction) :
      Exchanged (i :: j :: rest) (j :: i :: rest)
  | trans {code middle other : List Instruction} (first : Exchanged code middle)
      (second : Exchanged middle other) : Exchanged code other

variable {code other : List Instruction}

/-- Trading places loses no instruction and adds none. -/
theorem Exchanged.perm (h : Exchanged code other) : code.Perm other := by
  -- Two neighbours that trade places are still the same two.
  induction h with
  | refl code => exact .refl code
  | cons i rest ih => exact ih.cons i
  | swap same rest => exact .swap _ _ rest
  | trans first second ih ih' => exact ih.trans ih'

/-- Only instructions move, while the orders that are found at each place stay. -/
theorem Exchanged.orders_eq (h : Exchanged code other) :
    code.map Instruction.order = other.map Instruction.order := by
  -- Only neighbours of one order trade places.
  induction h with
  | refl code => rfl
  | cons i rest ih => rw [List.map_cons, List.map_cons, ih]
  | swap same rest => simp [same]
  | trans first second ih ih' => exact ih.trans ih'

/-- An instruction of the lowest order comes to the front of ascending instructions. -/
theorem exchanged_cons_erase {i : Instruction} (member : i ∈ code)
    (ascending : code.Pairwise fun i j => i.order ≤ j.order)
    (lowest : ∀ j ∈ code, i.order ≤ j.order) : Exchanged code (i :: code.erase i) := by
  -- Whatever stands before the instruction has no higher order, and so the same one.
  induction code with
  | nil => cases member
  | cons j rest ih =>
    by_cases front : j = i
    · subst front
      rw [List.erase_cons_head]
      exact .refl (j :: rest)
    · have behind : i ∈ rest := (List.mem_cons.mp member).resolve_left (Ne.symm front)
      have below : j.order ≤ i.order := List.rel_of_pairwise_cons ascending behind
      have same : j.order = i.order := UInt64.le_antisymm below (lowest j List.mem_cons_self)
      have moved := ih behind ascending.of_cons fun k later =>
        lowest k (List.mem_cons_of_mem j later)
      rw [List.erase_cons_tail (by simpa using front)]
      exact (moved.cons j).trans (.swap same (rest.erase i))

/-- Ascending sequences of the same instructions differ only among instructions of one order. -/
theorem exchanged_of_perm (first : code.Pairwise fun i j => i.order ≤ j.order)
    (second : other.Pairwise fun i j => i.order ≤ j.order) (same : code.Perm other) :
    Exchanged code other := by
  -- The first instruction of the target is fetched to the front, and then those behind it.
  induction other generalizing code with
  | nil =>
    rw [List.perm_nil.mp same]
    exact .refl []
  | cons i rest ih =>
    have member : i ∈ code := same.mem_iff.mpr List.mem_cons_self
    have lowest : ∀ j ∈ code, i.order ≤ j.order := by
      intro j among
      rcases List.mem_cons.mp (same.mem_iff.mp among) with rfl | later
      · exact UInt64.le_refl _
      · exact List.rel_of_pairwise_cons second later
    have left : (code.erase i).Perm rest :=
      ((List.perm_cons_erase member).symm.trans same).cons_inv
    have others := ih (first.sublist List.erase_sublist) second.of_cons left
    exact (exchanged_cons_erase member first lowest).trans (others.cons i)

end Instruction

namespace Defect

open Instruction (Exchanged)

/-- What was seen before matters only by how often each order occurs in it. -/
theorem structuralAfter_congr {earlier other : List UInt64}
    (counts : ∀ order, earlier.count order = other.count order) (code : List Instruction) :
    structuralAfter earlier code = structuralAfter other code := by
  -- A report asks for one count, and all counts grow alike from there.
  induction code generalizing earlier other with
  | nil => rfl
  | cons i rest ih =>
    have later : ∀ order, (i.order :: earlier).count order = (i.order :: other).count order := by
      intro order
      rw [List.count_cons, List.count_cons, counts order]
    rw [structuralAfter, structuralAfter, ih later, ofRepeat, ofRepeat, counts i.order]

/-- Two reports about orders are the same two, whichever of the instructions comes first. -/
theorem ofRepeat_swap (earlier : List UInt64) (i j : Instruction) :
    (ofRepeat earlier i ++ ofRepeat (i.order :: earlier) j).Perm
      (ofRepeat earlier j ++ ofRepeat (j.order :: earlier) i) := by
  -- Either both have one order, and then both reports ask for the same, or each asks for its own.
  by_cases same : i.order = j.order
  · -- A report shows nothing of an instruction but its order.
    have first : ofRepeat earlier i = ofRepeat earlier j := by
      rw [ofRepeat, ofRepeat, same]
    have second : ofRepeat (i.order :: earlier) j = ofRepeat (j.order :: earlier) i := by
      rw [ofRepeat, ofRepeat, same]
    rw [first, second]
  · -- Another order in front changes no count that is asked for.
    have first : ofRepeat (i.order :: earlier) j = ofRepeat earlier j := by
      rw [ofRepeat, ofRepeat, List.count_cons_of_ne same]
    have second : ofRepeat (j.order :: earlier) i = ofRepeat earlier i := by
      rw [ofRepeat, ofRepeat, List.count_cons_of_ne (Ne.symm same)]
    rw [first, second]
    exact List.perm_append_comm

private theorem structuralAfter_perm {code other : List Instruction} (same : code.Perm other)
    (earlier : List UInt64) :
    (structuralAfter earlier code).Perm (structuralAfter earlier other) := by
  -- Neighbours that change places swap their reports, and later ones count the same orders.
  induction same generalizing earlier with
  | nil => exact .refl []
  | cons i rest ih => exact (ih (i.order :: earlier)).append_left _
  | swap j i rest =>
    -- Both instructions have been seen when the others are looked at.
    have seen : structuralAfter (j.order :: i.order :: earlier) rest =
        structuralAfter (i.order :: j.order :: earlier) rest :=
      structuralAfter_congr (fun order => (List.Perm.swap _ _ earlier).count_eq order) rest
    refine List.perm_iff_count.mpr fun d => ?_
    have orders := (ofRepeat_swap earlier i j).count_eq d
    simp only [structuralAfter, seen, List.count_append] at orders ⊢
    omega
  | trans first second ih ih' => exact (ih earlier).trans (ih' earlier)

/-- The defects of orders and operands are the same for the same instructions. -/
theorem structural_perm {code other : List Instruction} (same : code.Perm other) :
    (structural [] code).Perm (structural [] other) := by
  -- The reports depend on how often orders occur, and not on the sets of the pass.
  rw [structural_eq_after, structural_eq_after]
  exact structuralAfter_perm same []

/-- Of earlier definitions only the one that is found for a label matters. -/
theorem duplicateLabels_congr {earlier other : List (String × UInt64)}
    (found : ∀ name, earlier.lookup name = other.lookup name)
    (defined : List (String × UInt64)) :
    duplicateLabels earlier defined = duplicateLabels other defined := by
  -- A report asks for one lookup, and all lookups change alike from there.
  induction defined generalizing earlier other with
  | nil => rfl
  | cons definition rest ih =>
    obtain ⟨name, order⟩ := definition
    have later : ∀ label, ((name, order) :: earlier).lookup label =
        ((name, order) :: other).lookup label := by
      intro label
      rw [List.lookup_cons, List.lookup_cons, found label]
    rw [duplicateLabels, duplicateLabels, found name, ih found, ih later]

private theorem lookup_cons_of_ne {name label : String} (differ : label ≠ name) (order : UInt64)
    (earlier : List (String × UInt64)) :
    ((name, order) :: earlier).lookup label = earlier.lookup label := by
  -- A definition in front is passed over by whoever looks for another label.
  rw [List.lookup_cons, beq_false_of_ne differ]

/-- Definitions of two labels are judged alike, whichever of them comes first. -/
theorem duplicateLabels_swap {name label : String} (differ : name ≠ label)
    (order other : UInt64) (earlier rest : List (String × UInt64)) :
    (duplicateLabels earlier ((name, order) :: (label, other) :: rest)).Perm
      (duplicateLabels earlier ((label, other) :: (name, order) :: rest)) := by
  -- Neither definition is the earlier one that is looked for on behalf of the other.
  have passed := lookup_cons_of_ne differ other earlier
  have overtaken := lookup_cons_of_ne (Ne.symm differ) order earlier
  cases known : earlier.lookup name with
  | some first =>
    cases also : earlier.lookup label with
    | some second =>
      simp only [duplicateLabels, known, also]
      exact .swap _ _ _
    | none =>
      simp only [duplicateLabels, known, also, passed]
      exact .refl _
  | none =>
    cases also : earlier.lookup label with
    | some second =>
      simp only [duplicateLabels, known, also, overtaken]
      exact .refl _
    | none =>
      simp only [duplicateLabels, known, also, passed, overtaken]
      -- Both are new, and are remembered in either sequence.
      refine .of_eq (duplicateLabels_congr (fun sought => ?_) rest)
      simp only [List.lookup_cons]
      by_cases same : sought = name
      · simp [same, beq_false_of_ne differ]
      · simp [beq_false_of_ne same]

/-- Labels that are defined again are the same where neighbours of one order trade places. -/
theorem duplicateLabels_exchanged {code other : List Instruction} (h : Exchanged code other)
    (earlier : List (String × UInt64)) :
    (duplicateLabels earlier (definitions code)).Perm
      (duplicateLabels earlier (definitions other)) := by
  -- A definition that the sequences share is judged and remembered on both sides.
  have cons (definition : String × UInt64) {first second : List (String × UInt64)}
      (rest : ∀ earlier, (duplicateLabels earlier first).Perm (duplicateLabels earlier second))
      (earlier : List (String × UInt64)) :
      (duplicateLabels earlier (definition :: first)).Perm
        (duplicateLabels earlier (definition :: second)) := by
    obtain ⟨name, order⟩ := definition
    rw [duplicateLabels, duplicateLabels]
    cases earlier.lookup name with
    | some place => exact (rest earlier).cons _
    | none => exact rest _
  induction h generalizing earlier with
  | refl code => exact .refl _
  | cons i rest ih =>
    rw [definitions_cons, definitions_cons]
    cases i.definedLabel? with
    | none => exact ih earlier
    | some name => exact cons (name, i.order) ih earlier
  | @swap i j same rest =>
    rw [definitions_cons, definitions_cons, definitions_cons, definitions_cons]
    cases i.definedLabel? with
    | none => exact .refl _
    | some name =>
      cases j.definedLabel? with
      | none => exact .refl _
      | some label =>
        by_cases equal : name = label
        · -- Two definitions of one label under one order cannot be told apart.
          rw [equal, same]
        · exact duplicateLabels_swap equal i.order j.order earlier (definitions rest)
  | trans first second ih ih' => exact (ih earlier).trans (ih' earlier)

/-- Whether a label is defined does not depend on the sequence of the definitions. -/
theorem isSome_lookup_perm {defined other : List (String × UInt64)} (same : defined.Perm other)
    (name : String) : (defined.lookup name).isSome = (other.lookup name).isSome := by
  -- To be found is to stand anywhere in the list.
  rw [Bool.eq_iff_iff, List.lookup_isSome_iff, List.lookup_isSome_iff]
  exact exists_congr fun definition => and_congr_left fun _ => same.mem_iff

/-- The defects of labels are the same where neighbours of one order trade places. -/
theorem labels_exchanged {code other : List Instruction} (h : Exchanged code other) :
    (labels code).Perm (labels other) := by
  -- Targets ask only whether a label is defined, which no exchange changes.
  have defined : (definitions code).Perm (definitions other) := h.perm.filterMap _
  have targets : ofTarget (definitions code) = ofTarget (definitions other) := by
    funext i
    simp only [ofTarget, isSome_lookup_perm defined]
  rw [labels, labels, targets]
  exact (duplicateLabels_exchanged h []).append (h.perm.filterMap _)

end Defect

namespace Program

variable {p q : Program}

/-- Sorting the same instructions leaves a choice only among those of one order. -/
theorem sorted_exchanged (same : p.instructions.Perm q.instructions) :
    Instruction.Exchanged p.sorted q.sorted :=
  Instruction.exchanged_of_perm p.sorted_ascending q.sorted_ascending
    (p.sorted_perm.trans (same.trans q.sorted_perm.symm))

/-- Instructions without a repeated order are sorted in one way only. -/
theorem sorted_eq_of_perm (same : p.instructions.Perm q.instructions)
    (distinct : (p.instructions.map Instruction.order).Nodup) : p.sorted = q.sorted := by
  have others : (q.instructions.map Instruction.order).Nodup :=
    (same.map Instruction.order).nodup_iff.mp distinct
  refine (sorted_exchanged same).perm.eq_of_pairwise ?_ (sorted_strict distinct)
    (sorted_strict others)
  -- No two instructions are below each other.
  intro i j _ _ below above
  exact absurd (UInt64.lt_trans below above) (UInt64.lt_irrefl _)

/-- The defects of a program do not depend on the sequence in which its instructions come. -/
theorem defects_perm (same : p.instructions.Perm q.instructions) : p.defects.Perm q.defects :=
  (Defect.structural_perm same).append (Defect.labels_exchanged (sorted_exchanged same))

end Program

end ThreeAddress
