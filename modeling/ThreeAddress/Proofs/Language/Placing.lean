import Mathlib.Data.List.Nodup
import ThreeAddress.Language.Instruction
import ThreeAddress.Proofs.Result

/-!
Arguments are put into place by their positions, which have to count from one. Which arguments come
first before they are placed makes no difference.
-/

namespace ThreeAddress

/-- Arguments in the sequence in which their positions count from one. -/
def InPlace (arguments : List Argument) : Prop :=
  arguments.map Argument.position = List.range' 1 arguments.length

/-- Positions that count from one up to a last one, which is followed by a position that does not
go on counting when all of them ascend. -/
def Misplaced (positions : List Nat) (position : Nat) : Prop :=
  ∃ last rest, positions.Perm (List.range' 1 last ++ position :: rest) ∧
    (List.range' 1 last ++ position :: rest).Pairwise (· ≤ ·) ∧ position ≠ last + 1

/-- No argument is out of place exactly if the positions count from the rank of the first. -/
theorem firstMisplaced_eq_none_iff {rank : Nat} {arguments : List Argument} :
    firstMisplaced rank arguments = none ↔
      arguments.map Argument.position = List.range' rank arguments.length := by
  -- The next argument has the next rank.
  induction arguments generalizing rank with
  | nil => exact iff_of_true rfl rfl
  | cons argument rest ih =>
    rw [firstMisplaced, List.map_cons, List.length_cons, List.range'_succ, List.cons.injEq, ← ih]
    split
    · rename_i inPlace
      exact ⟨fun others => ⟨inPlace, others⟩, And.right⟩
    · rename_i outOfPlace
      exact iff_of_false nofun fun h => outOfPlace h.1

/-- An argument is out of place where the positions cease to count from the rank of the first. -/
theorem firstMisplaced_eq_some_iff {rank position : Nat} {arguments : List Argument} :
    firstMisplaced rank arguments = some position ↔
      ∃ count rest, arguments.map Argument.position = List.range' rank count ++ position :: rest ∧
        position ≠ rank + count := by
  -- The check passes over arguments in place and stops at the first one that is not.
  induction arguments generalizing rank with
  | nil =>
    refine iff_of_false nofun ?_
    rintro ⟨count, rest, positions, _⟩
    exact List.append_ne_nil_of_right_ne_nil _ (List.cons_ne_nil position rest) positions.symm
  | cons argument others ih =>
    rw [firstMisplaced, List.map_cons]
    split
    · -- An argument in place is one more that counts.
      rename_i inPlace
      rw [ih]
      constructor
      · rintro ⟨count, rest, positions, wrong⟩
        refine ⟨count + 1, rest, ?_, by omega⟩
        rw [positions, inPlace, List.range'_succ, List.cons_append]
      · rintro ⟨count, rest, positions, wrong⟩
        cases count with
        | zero =>
          obtain ⟨first, _⟩ := List.cons.inj positions
          omega
        | succ count =>
          rw [List.range'_succ, List.cons_append] at positions
          exact ⟨count, rest, (List.cons.inj positions).2, by omega⟩
    · rename_i outOfPlace
      constructor
      · intro found
        cases found
        exact ⟨0, others.map Argument.position, rfl, outOfPlace⟩
      · rintro ⟨count, rest, positions, wrong⟩
        cases count with
        | zero =>
          obtain ⟨first, _⟩ := List.cons.inj positions
          rw [first]
        | succ count =>
          rw [List.range'_succ, List.cons_append] at positions
          exact absurd (List.cons.inj positions).1 outOfPlace

namespace Instruction

variable {opcode : Opcode} {order : UInt64} {arguments placed : List Argument}

/-- The positions of arguments that have been put into place ascend. -/
theorem positions_ascending (arguments : List Argument) :
    ((arguments.mergeSort fun a b => a.position ≤ b.position).map Argument.position).Pairwise
      (· ≤ ·) := by
  -- Sorting ascends by whatever comparison is total and transitive.
  rw [List.pairwise_map]
  refine (List.pairwise_mergeSort ?_ ?_ arguments).imp of_decide_eq_true
  · intro a b c first second
    exact decide_eq_true (Nat.le_trans (of_decide_eq_true first) (of_decide_eq_true second))
  · intro a b
    simpa using Nat.le_total a.position b.position

/-- Arguments are put into the one sequence in which their positions count from one. -/
theorem placed_eq (same : placed.Perm arguments)
    (numbered : InPlace placed) :
    arguments.mergeSort (fun a b => a.position ≤ b.position) = placed := by
  have distinct : (placed.map Argument.position).Nodup := numbered ▸ List.nodup_range'
  have ascending : (placed.map Argument.position).Pairwise (· ≤ ·) :=
    numbered ▸ (List.pairwise_lt_range').imp Nat.le_of_lt
  have sorted := positions_ascending arguments
  rw [List.pairwise_map] at ascending sorted
  refine List.Perm.eq_of_pairwise ?_ sorted ascending
    ((List.mergeSort_perm arguments _).trans same.symm)
  -- No two of the arguments share a position.
  intro a b member other below above
  have among : a ∈ placed := same.mem_iff.mpr (List.mem_mergeSort.mp member)
  exact List.inj_on_of_nodup_map distinct among other (Nat.le_antisymm below above)

/-- Arguments are decoded in the sequence in which their positions count from one. -/
theorem ofArguments_eq_mapM (same : placed.Perm arguments)
    (numbered : InPlace placed) :
    ofArguments opcode order arguments = (do
      let operands ← placed.mapM Operand.ofArgument
      return { opcode, order, operands }) := by
  -- Sorted by position, the arguments stand as they do in the list that is in place.
  unfold ofArguments
  simp only [placed_eq same numbered, firstMisplaced_eq_none_iff.mpr numbered]

/-- Arguments that can be put into place make an instruction as their texts denote it. -/
theorem ofArguments_placed_ok_iff (same : placed.Perm arguments)
    (numbered : InPlace placed) {i : Instruction} :
    ofArguments opcode order arguments = .ok i ↔
      ∃ operands, placed.mapM Operand.ofArgument = .ok operands ∧
        i = { opcode, order, operands } := by
  -- All that can fail is decoding the texts.
  rw [ofArguments_eq_mapM same numbered, bind_eq_ok_iff]
  constructor
  · rintro ⟨operands, denoted, built⟩
    cases built
    exact ⟨operands, denoted, rfl⟩
  · rintro ⟨operands, denoted, rfl⟩
    exact ⟨operands, denoted, rfl⟩

/-- Arguments that can be put into place make none exactly if one of them denotes none. -/
theorem ofArguments_placed_error_iff (same : placed.Perm arguments)
    (numbered : InPlace placed) {e : ArgumentError} :
    ofArguments opcode order arguments = .error e ↔
      placed.mapM Operand.ofArgument = .error e := by
  -- All that can fail is decoding the texts.
  rw [ofArguments_eq_mapM same numbered, bind_eq_error_iff]
  constructor
  · rintro (failed | ⟨_, _, failed⟩)
    · exact failed
    · cases failed
  · exact .inl

/-- A position that is out of place is refused, whatever the texts are. -/
theorem ofArguments_of_misplaced {position : Nat}
    (wrong : Misplaced (arguments.map Argument.position) position) :
    ofArguments opcode order arguments = .error (.invalidPosition position) := by
  -- Positions can be sorted in one way only.
  obtain ⟨last, rest, same, ascending, skipped⟩ := wrong
  have reordered := List.mergeSort_perm arguments fun a b => a.position ≤ b.position
  have sorted := ((reordered.map Argument.position).trans same).eq_of_pairwise
    (fun _ _ _ _ => Nat.le_antisymm) (positions_ascending arguments) ascending
  have found := firstMisplaced_eq_some_iff.mpr
    ⟨last, rest, sorted, show position ≠ 1 + last by omega⟩
  simp only [ofArguments, found]

/-- Arguments can be put into place, or one of their positions is out of place. -/
theorem placed_or_misplaced (arguments : List Argument) :
    (∃ placed : List Argument, placed.Perm arguments ∧ InPlace placed) ∨
    ∃ position, Misplaced (arguments.map Argument.position) position := by
  -- The check of the sorted arguments finds either.
  have reordered := List.mergeSort_perm arguments fun a b => a.position ≤ b.position
  cases checked : firstMisplaced 1 (arguments.mergeSort fun a b => a.position ≤ b.position) with
  | none => exact .inl ⟨_, reordered, firstMisplaced_eq_none_iff.mp checked⟩
  | some position =>
    obtain ⟨last, rest, positions, wrong⟩ := firstMisplaced_eq_some_iff.mp checked
    refine .inr ⟨position, last, rest, positions ▸ (reordered.map Argument.position).symm, ?_, ?_⟩
    · exact positions ▸ positions_ascending arguments
    · omega

/-- Arguments make an instruction exactly if they can be put into place and all denote operands. -/
theorem ofArguments_ok_iff {i : Instruction} :
    ofArguments opcode order arguments = .ok i ↔ i.opcode = opcode ∧ i.order = order ∧
      ∃ placed : List Argument, placed.Perm arguments ∧ InPlace placed ∧
        placed.mapM Operand.ofArgument = .ok i.operands := by
  -- Either there is a way to place them, which is the only one, or it has failed before.
  constructor
  · intro built
    rcases placed_or_misplaced arguments with ⟨placed, same, numbered⟩ | ⟨position, wrong⟩
    · obtain ⟨operands, denoted, rfl⟩ := (ofArguments_placed_ok_iff same numbered).mp built
      exact ⟨rfl, rfl, placed, same, numbered, denoted⟩
    · rw [ofArguments_of_misplaced wrong] at built
      cases built
  · rintro ⟨rfl, rfl, placed, same, numbered, denoted⟩
    exact (ofArguments_placed_ok_iff same numbered).mpr ⟨i.operands, denoted, rfl⟩

/-- Arguments make none exactly if one is out of place, or all can be placed and one is refused. -/
theorem ofArguments_error_iff {e : ArgumentError} :
    ofArguments opcode order arguments = .error e ↔
      (∃ position, Misplaced (arguments.map Argument.position) position ∧
        e = .invalidPosition position) ∨
      ∃ placed : List Argument, placed.Perm arguments ∧ InPlace placed ∧
        placed.mapM Operand.ofArgument = .error e := by
  -- Either the arguments can be put into place, or some position shows that they cannot.
  constructor
  · intro failed
    rcases placed_or_misplaced arguments with ⟨placed, same, numbered⟩ | ⟨position, wrong⟩
    · exact .inr ⟨placed, same, numbered, (ofArguments_placed_error_iff same numbered).mp failed⟩
    · rw [ofArguments_of_misplaced wrong] at failed
      cases failed
      exact .inl ⟨position, wrong, rfl⟩
  · rintro (⟨position, wrong, rfl⟩ | ⟨placed, same, numbered, refused⟩)
    · exact ofArguments_of_misplaced wrong
    · exact (ofArguments_placed_error_iff same numbered).mpr refused

end Instruction

end ThreeAddress
