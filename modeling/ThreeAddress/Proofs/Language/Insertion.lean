import Mathlib.Data.List.InsertIdx
import ThreeAddress.Proofs.Language.Permutation
import ThreeAddress.Proofs.Language.Signature

/-!
A program with the definition of one more label. In sorted sequence the definition stands at one
place, the instructions behind it are one place further, and nothing that was sound becomes unsound.
-/

namespace ThreeAddress

/-- Where an instruction stands after another one was inserted at a place. -/
def shifted (place position : Nat) : Nat :=
  if position < place then position else position + 1

namespace Instruction

/-- An instruction that goes in behind all lower orders leaves strictly ascending code so. -/
theorem pairwise_insertIdx {code : List Instruction} {added : Instruction}
    (ascending : code.Pairwise fun i j => i.order < j.order)
    (apart : ∀ i ∈ code, i.order ≠ added.order) :
    (code.insertIdx (code.countP fun i => i.order < added.order) added).Pairwise
      fun i j => i.order < j.order := by
  -- The number of lower orders tells how many instructions come before the added one.
  induction code with
  | nil => exact List.pairwise_singleton _ _
  | cons i rest ih =>
    obtain ⟨lowest, others⟩ := List.pairwise_cons.mp ascending
    obtain ⟨differ, otherwise⟩ := List.forall_mem_cons.mp apart
    by_cases below : i.order < added.order
    · -- The first instruction stays in front, and the added one is behind it.
      rw [List.countP_cons_of_pos (by simpa using below), List.insertIdx_succ_cons]
      refine List.pairwise_cons.mpr ⟨fun j member => ?_, ih others otherwise⟩
      rcases List.eq_or_mem_of_mem_insertIdx member with rfl | later
      · exact below
      · exact lowest j later
    · -- The added instruction is below the first one, and so below all.
      have above : added.order < i.order :=
        UInt64.lt_of_le_of_ne (UInt64.not_lt.mp below) (Ne.symm differ)
      have all : ∀ j ∈ i :: rest, added.order < j.order := by
        refine List.forall_mem_cons.mpr ⟨above, fun j later => ?_⟩
        exact UInt64.lt_trans above (lowest j later)
      have none : (i :: rest).countP (fun j => j.order < added.order) = 0 := by
        rw [List.countP_eq_zero]
        intro j member
        simpa using UInt64.le_of_lt (all j member)
      rw [none, List.insertIdx_zero]
      exact List.pairwise_cons.mpr ⟨all, ascending⟩

end Instruction

/-- Which labels are defined has nothing to do with the sequence of the definitions. -/
theorem Defect.definitions_perm {code other : List Instruction} (same : code.Perm other) :
    ((definitions code).map Prod.fst).Perm (other.filterMap Instruction.definedLabel?) := by
  -- The orders of the definitions are left out.
  have names :
      (definitions code).map Prod.fst = code.filterMap Instruction.definedLabel? := by
    rw [definitions, List.map_filterMap]
    congr 1
    funext i
    cases i.definedLabel? <;> rfl
  rw [names]
  exact same.filterMap _

namespace Program

/-- A program has one more instruction than another, which defines a label that is new. -/
structure AddsLabel (p q : Program) (order : UInt64) (name : String) : Prop where
  added : q.instructions.Perm (⟨.label, order, [.label name]⟩ :: p.instructions)
  newOrder : ∀ i ∈ p.instructions, i.order ≠ order
  newName : ∀ i ∈ p.instructions, .label name ∉ i.operands

/-- The place of an order among those of a program: the number of lower ones. -/
def placeOf (p : Program) (order : UInt64) : Nat :=
  p.instructions.countP fun i => i.order < order

variable {p q : Program} {order : UInt64} {name : String}

/-- Different orders stay different with a new one. -/
theorem AddsLabel.distinct (h : p.AddsLabel q order name)
    (distinct : (p.instructions.map Instruction.order).Nodup) :
    (q.instructions.map Instruction.order).Nodup := by
  -- The sequence does not matter, so the new order may be put in front.
  rw [(h.added.map Instruction.order).nodup_iff, List.map_cons, List.nodup_cons]
  refine ⟨fun member => ?_, distinct⟩
  obtain ⟨i, among, same⟩ := List.mem_map.mp member
  exact h.newOrder i among same

/-- The place of an order is within the sorted program or right behind it. -/
theorem placeOf_le (p : Program) (order : UInt64) : p.placeOf order ≤ p.sorted.length := by
  -- No more instructions precede the order than there are.
  rw [p.sorted_perm.length_eq]
  exact List.countP_le_length

/-- Sorting puts the definition at its place, and leaves the other instructions in sequence. -/
theorem AddsLabel.sorted_eq (h : p.AddsLabel q order name)
    (distinct : (p.instructions.map Instruction.order).Nodup) :
    q.sorted = p.sorted.insertIdx (p.placeOf order) ⟨.label, order, [.label name]⟩ := by
  -- Both sequences ascend and hold the same instructions.
  have apart : ∀ i ∈ p.sorted, i.order ≠ order := fun i member =>
    h.newOrder i (mem_sorted.mp member)
  have place : p.placeOf order = p.sorted.countP fun i => i.order < order :=
    (p.sorted_perm.countP_eq _).symm
  have ascending := @Instruction.pairwise_insertIdx _ ⟨.label, order, [.label name]⟩
    (sorted_strict distinct) apart
  rw [← place] at ascending
  refine List.Perm.eq_of_pairwise ?_ (sorted_strict (h.distinct distinct)) ascending ?_
  · intro i j _ _ below above
    exact absurd (UInt64.lt_trans below above) (UInt64.lt_irrefl _)
  · refine (q.sorted_perm.trans h.added).trans ?_
    exact ((p.sorted_perm.symm.cons _).trans
      (List.perm_insertIdx _ _ (p.placeOf_le order)).symm)

/-- Each instruction is found where the added one has shifted it. -/
theorem AddsLabel.getElem?_sorted (h : p.AddsLabel q order name)
    (distinct : (p.instructions.map Instruction.order).Nodup) (position : Nat) :
    q.sorted[shifted (p.placeOf order) position]? = p.sorted[position]? := by
  -- Before the place nothing moves, and from it on everything does.
  rw [h.sorted_eq distinct, shifted]
  split
  · rename_i before
    exact List.getElem?_insertIdx_of_lt before
  · rename_i behind
    exact List.getElem?_insertIdx_of_gt (Nat.lt_succ_of_le (Nat.le_of_not_lt behind))

/-- The added instruction is found at its place. -/
theorem AddsLabel.getElem?_place (h : p.AddsLabel q order name)
    (distinct : (p.instructions.map Instruction.order).Nodup) :
    q.sorted[p.placeOf order]? = some ⟨.label, order, [.label name]⟩ := by
  -- The sorted program is the old one with the instruction put in at that place.
  rw [h.sorted_eq distinct, List.getElem?_insertIdx_self, if_pos (p.placeOf_le order)]

/-- A program that links still has sound orders, operands and labels with the new definition. -/
theorem AddsLabel.sound (h : p.AddsLabel q order name)
    (sound : Defect.structural [] p.instructions = [])
    (once : Defect.duplicateLabels [] (Defect.definitions p.sorted) = []) :
    Defect.structural [] q.instructions = [] ∧
      Defect.duplicateLabels [] (Defect.definitions q.sorted) = [] := by
  -- Operands fit, orders differ and labels are defined once, of which each is seen on its own.
  rw [Defect.structural_eq_nil_iff] at sound ⊢
  rw [Defect.duplicateLabels_eq_nil_iff] at once ⊢
  obtain ⟨fits, distinct⟩ := sound
  refine ⟨⟨?_, h.distinct distinct⟩, ?_, by simp⟩
  · intro i member
    rcases List.mem_cons.mp (h.added.mem_iff.mp member) with rfl | among
    · rfl
    · exact fits i among
  · -- The new label is one that no instruction of the program has.
    rw [(Defect.definitions_perm (q.sorted_perm.trans h.added)).nodup_iff]
    have earlier := (Defect.definitions_perm p.sorted_perm).nodup_iff.mp once.1
    change (name :: p.instructions.filterMap Instruction.definedLabel?).Nodup
    refine List.nodup_cons.mpr ⟨fun member => ?_, earlier⟩
    obtain ⟨i, among, defined⟩ := List.mem_filterMap.mp member
    have operands := ((Instruction.definedLabel?_eq_some_iff (fits i among)).mp defined).2
    exact h.newName i among (by simp [operands])

end Program

end ThreeAddress
