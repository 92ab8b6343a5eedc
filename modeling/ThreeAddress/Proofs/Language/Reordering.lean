import Mathlib.Data.List.Count
import ThreeAddress.Proofs.Language.Renumbering

/-!
Other orders for the same instructions. Where they keep the sequence, sorting commutes with giving
them, and renumbering a program with distinct orders is one way of giving them.
-/

namespace ThreeAddress

/-- An instruction with the order that a map makes of its own. -/
def Instruction.reorder (f : UInt64 → UInt64) (i : Instruction) : Instruction :=
  { i with order := f i.order }

namespace Program

variable {p : Program} {f : UInt64 → UInt64}

/-- A program in which a map is applied to all orders. -/
def reorder (f : UInt64 → UInt64) (p : Program) : Program :=
  { instructions := p.instructions.map (Instruction.reorder f) }

/-- A map is strictly increasing on the orders of a program. -/
def Increasing (p : Program) (f : UInt64 → UInt64) : Prop :=
  ∀ i ∈ p.instructions, ∀ j ∈ p.instructions, i.order < j.order → f i.order < f j.order

/-- A strictly increasing map reflects the comparison of two orders. -/
theorem Increasing.le_iff (h : p.Increasing f) {i j : Instruction} (first : i ∈ p.instructions)
    (second : j ∈ p.instructions) : f i.order ≤ f j.order ↔ i.order ≤ j.order := by
  -- Forth, equal orders stay equal and lower ones lower; back, a greater order would stay greater.
  constructor
  · intro mapped
    by_contra above
    -- The map is increasing on the two orders the other way round as well.
    exact UInt64.not_le.mpr (h j second i first (UInt64.not_le.mp above)) mapped
  · intro le
    by_cases same : i.order = j.order
    · exact UInt64.le_of_eq (congrArg f same)
    · exact UInt64.le_of_lt (h i first j second (UInt64.lt_of_le_of_ne le same))

/-- A strictly increasing map keeps different orders apart. -/
theorem Increasing.eq_iff (h : p.Increasing f) {i j : Instruction} (first : i ∈ p.instructions)
    (second : j ∈ p.instructions) : f i.order = f j.order ↔ i.order = j.order := by
  -- Orders that are mapped to one order are below each other.
  constructor
  · intro same
    have below := (h.le_iff first second).mp (UInt64.le_of_eq same)
    have above := (h.le_iff second first).mp (UInt64.le_of_eq same.symm)
    exact UInt64.le_antisymm below above
  · exact congrArg f

/-- Sorting a program does not depend on the orders themselves but on how they compare. -/
theorem sorted_reorder (h : p.Increasing f) :
    (p.reorder f).sorted = p.sorted.map (Instruction.reorder f) := by
  -- The sort asks only for comparisons of orders, and the map leaves their answers as they are.
  refine (List.map_mergeSort fun i first j second => ?_).symm
  -- Both sides decide the same comparison of two members.
  exact decide_eq_decide.mpr (h.le_iff first second).symm

/-- The program with its instructions in sequence, under their own orders. -/
def inSequence (p : Program) : Program :=
  { instructions := p.sorted }

/-- A program in sequence is sorted. -/
theorem sorted_inSequence (p : Program) : p.inSequence.sorted = p.sorted :=
  List.mergeSort_of_pairwise (p.sorted_ascending.imp fun below => decide_eq_true below)

/-- The sequence makes no difference to which maps are increasing. -/
theorem Increasing.inSequence (h : p.Increasing f) : p.inSequence.Increasing f :=
  fun i first j second => h i (mem_sorted.mp first) j (mem_sorted.mp second)

/-- The number that renumbering gives an instruction: one more than there are lower orders. -/
def rankOf (p : Program) (order : UInt64) : UInt64 :=
  UInt64.ofNat (1 + p.sorted.countP fun i => i.order < order)

end Program

/-- Renumbering strictly ascending instructions replaces each order by its rank among them. -/
theorem Instruction.renumber_eq_map {rank : Nat} {code : List Instruction}
    (ascending : code.Pairwise fun i j => i.order < j.order) :
    renumber rank code = code.map
      (reorder fun order => UInt64.ofNat (rank + code.countP fun i => i.order < order)) := by
  -- The first of the remaining instructions counts once for each one behind it.
  induction code generalizing rank with
  | nil => rfl
  | cons i rest ih =>
    obtain ⟨lowest, ascending⟩ := List.pairwise_cons.mp ascending
    rw [renumber, List.map_cons, ih ascending]
    congr 1
    · -- No order is lower than the first one.
      have none : (i :: rest).countP (fun k => k.order < i.order) = 0 := by
        rw [List.countP_eq_zero]
        intro k member
        rcases List.mem_cons.mp member with rfl | member
        · simp
        · simpa using UInt64.le_of_lt (lowest k member)
      simp [reorder, none]
    · refine List.map_congr_left fun j member => ?_
      -- The first order is below every later one, which moves all counts by one.
      have more : (i :: rest).countP (fun k => k.order < j.order) =
          rest.countP (fun k => k.order < j.order) + 1 := by
        simp [lowest j member]
      rw [reorder, reorder, more, Nat.add_right_comm, Nat.add_assoc]

private theorem Instruction.countP_lt_countP {code : List Instruction} {i : Instruction}
    {order : UInt64} (member : i ∈ code) (below : i.order < order) :
    (code.countP fun k => k.order < i.order) < code.countP fun k => k.order < order := by
  -- Whatever is below the lower order is below the other one, and so is the lower one itself.
  have mono (part : List Instruction) : (part.countP fun k => k.order < i.order) ≤
      part.countP fun k => k.order < order := by
    refine List.countP_mono_left fun k _ lower => ?_
    exact decide_eq_true (UInt64.lt_trans (of_decide_eq_true lower) below)
  -- The instruction splits the list, and is itself counted on one side only.
  obtain ⟨before, after, rfl⟩ := List.append_of_mem member
  have first := mono before
  have last := mono after
  simp only [List.countP_append, List.countP_cons, below, decide_true, if_true,
    UInt64.lt_irrefl, decide_false, Bool.false_eq_true, if_false]
  omega

namespace Program

variable {p : Program}

/-- Without repeated orders the sorted instructions ascend strictly. -/
theorem sorted_strict (distinct : (p.instructions.map Instruction.order).Nodup) :
    p.sorted.Pairwise fun i j => i.order < j.order := by
  -- Sorted orders do not descend, and different ones cannot stay level.
  have different : (p.sorted.map Instruction.order).Nodup :=
    (p.sorted_perm.map Instruction.order).nodup_iff.mpr distinct
  have apart : p.sorted.Pairwise fun i j => i.order ≠ j.order := List.pairwise_map.mp different
  exact (p.sorted_ascending.and apart).imp fun ⟨le, ne⟩ => UInt64.lt_of_le_of_ne le ne

/-- Renumbering a program without repeated orders gives each order its rank. -/
theorem renumbered_eq_reorder (distinct : (p.instructions.map Instruction.order).Nodup) :
    p.renumbered = p.inSequence.reorder p.rankOf := by
  -- Sorted orders ascend strictly, so that each order is told by its rank.
  rw [renumbered, Instruction.renumber_eq_map (sorted_strict distinct)]
  rfl

/-- Ranks increase with the orders they are given to, if there are enough of them. -/
theorem increasing_rankOf (small : p.instructions.length < UInt64.size) :
    p.Increasing p.rankOf := by
  -- A lower order has fewer orders below it, and no count reaches the number of orders.
  intro i first j second below
  have member := mem_sorted.mpr first
  -- No order is below itself, so at least one instruction is not counted.
  have room : (p.sorted.countP fun k => k.order < j.order) < p.sorted.length :=
    List.countP_lt_length_iff.mpr ⟨j, mem_sorted.mpr second, by simp⟩
  have fewer := Instruction.countP_lt_countP member below
  rw [p.sorted_perm.length_eq] at room
  rw [UInt64.lt_iff_toNat_lt, rankOf, rankOf, UInt64.toNat_ofNat_of_lt' (by omega),
    UInt64.toNat_ofNat_of_lt' (by omega)]
  omega

end Program

end ThreeAddress
