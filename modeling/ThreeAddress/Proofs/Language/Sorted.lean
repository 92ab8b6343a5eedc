import ThreeAddress.Language.Program

/-! Sorting a program brings its instructions into ascending order and changes nothing else. -/

namespace ThreeAddress.Program

/-- Sorting keeps every instruction as often as it occurs. -/
theorem sorted_perm (p : Program) : p.sorted.Perm p.instructions :=
  List.mergeSort_perm p.instructions _

/-- The sorted instructions are the instructions of the program. -/
@[simp] theorem mem_sorted {p : Program} {i : Instruction} :
    i ∈ p.sorted ↔ i ∈ p.instructions :=
  p.sorted_perm.mem_iff

/-- No sorted instruction has a greater order than a later one. -/
theorem sorted_ascending (p : Program) : p.sorted.Pairwise fun i j => i.order ≤ j.order := by
  -- The comparison of orders is total and transitive, as the sort requires.
  have transitive : ∀ i j k : Instruction, decide (i.order ≤ j.order) = true →
      decide (j.order ≤ k.order) = true → decide (i.order ≤ k.order) = true := by
    intro i j k first second
    simp only [decide_eq_true_eq] at first second ⊢
    exact UInt64.le_trans first second
  have total : ∀ i j : Instruction,
      (decide (i.order ≤ j.order) || decide (j.order ≤ i.order)) = true := by
    intro i j
    simpa using UInt64.le_total i.order j.order
  have sorted := List.pairwise_mergeSort transitive total p.instructions
  exact sorted.imp fun le => by simpa only [decide_eq_true_eq] using le

end ThreeAddress.Program
