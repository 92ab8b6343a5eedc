import ThreeAddress.Proofs.Language.Sorted

/-! Renumbering puts the instructions of a program into sequence and numbers them from one. -/

namespace ThreeAddress

/-- The instructions with their ranks for orders, where `rank` is that of the first. -/
def Instruction.renumber (rank : Nat) : List Instruction → List Instruction
  | [] => []
  | i :: rest => { i with order := UInt64.ofNat rank } :: renumber (rank + 1) rest

/-- The program with its instructions by ascending order and numbered from one. -/
def Program.renumbered (p : Program) : Program :=
  { instructions := Instruction.renumber 1 p.sorted }

namespace Instruction

/-- Renumbering gives consecutive orders, as far as orders go. -/
theorem orders_renumber {rank : Nat} {code : List Instruction}
    (small : rank + code.length ≤ UInt64.size) :
    (renumber rank code).map (fun i => i.order.toNat) = List.range' rank code.length := by
  -- No rank reaches the number of orders, so none of them wraps around.
  induction code generalizing rank with
  | nil => rfl
  | cons i rest ih =>
    rw [List.length_cons] at small
    have first : rank < UInt64.size := by omega
    rw [renumber, List.map_cons, ih (by omega), List.length_cons, List.range'_succ,
      UInt64.toNat_ofNat_of_lt' first]

/-- Renumbering keeps what the instructions do. -/
theorem contents_renumber {rank : Nat} {code : List Instruction} :
    (renumber rank code).map (fun i => (i.opcode, i.operands)) =
      code.map fun i => (i.opcode, i.operands) := by
  -- One instruction after another gets its rank and keeps the rest.
  induction code generalizing rank with
  | nil => rfl
  | cons i rest ih => rw [renumber, List.map_cons, List.map_cons, ih]

/-- What holds of all instructions whatever their orders holds of all renumbered ones. -/
theorem forall_mem_renumber {property : Instruction → Prop}
    (blind : ∀ i order, property { i with order } ↔ property i) {rank : Nat}
    {code : List Instruction} :
    (∀ i ∈ renumber rank code, property i) ↔ ∀ i ∈ code, property i := by
  -- Renumbering changes orders only, so one instruction after another can be compared.
  induction code generalizing rank with
  | nil => exact Iff.rfl
  | cons i rest ih => rw [renumber, List.forall_mem_cons, List.forall_mem_cons, ih, blind]

end Instruction

/-- As long as orders suffice, those of a renumbered program are one, two, three and so on. -/
theorem Program.orders_renumbered {p : Program} (small : p.instructions.length < UInt64.size) :
    p.renumbered.instructions.map (fun i => i.order.toNat) =
      List.range' 1 p.instructions.length := by
  -- Sorting keeps the length, so that the last rank is an order, too.
  have same : p.sorted.length = p.instructions.length := p.sorted_perm.length_eq
  have room : 1 + p.sorted.length ≤ UInt64.size := by
    rw [same]
    omega
  rw [renumbered, Instruction.orders_renumber room, same]

end ThreeAddress
