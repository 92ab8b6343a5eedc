import ThreeAddress.Machine.Execution
import ThreeAddress.Proofs.Language.Permutation
import ThreeAddress.Proofs.Machine.Linking
import ThreeAddress.Source.Listing

/-!
The sequence in which instructions come makes no difference to a program. Where orders differ there
is one way to sort them, and where one repeats nothing but the lowest repeated order is looked at.
-/

namespace ThreeAddress

/-- Which order neighbours share is a matter of the orders at each place alone. -/
theorem sharedOrder?_congr {code other : List Instruction}
    (orders : code.map Instruction.order = other.map Instruction.order) :
    sharedOrder? code = sharedOrder? other := by
  -- Both passes compare the same pairs, and stop at the same one.
  fun_induction sharedOrder? code generalizing other with
  | case1 i j rest same =>
    obtain ⟨k, others, rfl, first, behind⟩ := List.map_eq_cons_iff.mp orders.symm
    obtain ⟨l, remaining, rfl, second, _⟩ := List.map_eq_cons_iff.mp behind
    rw [sharedOrder?, first, second, if_pos same]
  | case2 i j rest differ ih =>
    obtain ⟨k, others, rfl, first, behind⟩ := List.map_eq_cons_iff.mp orders.symm
    rw [ih behind.symm]
    obtain ⟨l, remaining, rfl, second, _⟩ := List.map_eq_cons_iff.mp behind
    rw [sharedOrder?, first, second, if_neg differ]
  | case3 code short =>
    cases other with
    | nil => rfl
    | cons k others =>
      cases others with
      | nil => rfl
      | cons l remaining =>
        -- The other sequence is as short as the first.
        obtain ⟨i, behind, rfl, _, later⟩ := List.map_eq_cons_iff.mp orders
        obtain ⟨j, rest, rfl, _, _⟩ := List.map_eq_cons_iff.mp later
        exact absurd rfl (short i j rest)

namespace Program

variable {p q : Program}

/-- The same instructions link to the same image, or fail to link for the same reason. -/
theorem link_perm (same : p.instructions.Perm q.instructions) : p.link = q.link := by
  have shared := sharedOrder?_congr (sorted_exchanged same).orders_eq
  cases repeated : sharedOrder? p.sorted with
  | some order =>
    -- A repeated order is reported before anything else is looked at.
    have failed : linkCode p.sorted = linkCode q.sorted := by
      rw [linkCode, linkCode, ← shared, repeated]
    have stopped : linkCode p.sorted = .error (.raised order (.flaw .duplicateOrder)) := by
      rw [linkCode, repeated]
    rw [link_eq_error_iff.mpr stopped, link_eq_error_iff.mpr (failed ▸ stopped)]
  | none =>
    -- Without one there is a single sorted sequence, which is all that linking sees.
    have distinct := (sharedOrder?_eq_none_iff p.sorted_ascending).mp repeated
    rw [(p.sorted_perm.map Instruction.order).nodup_iff] at distinct
    rw [link, link, sorted_eq_of_perm same distinct]

/-- An execution of the same instructions is the same execution. -/
theorem execute_perm (same : p.instructions.Perm q.instructions) (devices : Devices) (fuel : Nat)
    (m : Machine) : p.execute devices fuel m = q.execute devices fuel m := by
  -- What is run is the image, and both programs link to one.
  rw [execute, execute, start, start, link_perm same]

/--
The sequence in which the instructions of a program come never matters.

Programs with the same instructions link to one image or stop at one fault, so that all executions
agree in their results and in what they write. They have the same defects, each as often. Without
repeated orders they have one listing, and the defects of labels are found in one sequence.
-/
theorem sequence_is_irrelevant (p q : Program) (same : p.instructions.Perm q.instructions) :
    (∀ m, p.start m = q.start m) ∧
    (∀ devices fuel m, p.execute devices fuel m = q.execute devices fuel m) ∧
    p.defects.Perm q.defects ∧
    ((p.instructions.map Instruction.order).Nodup →
      p.listing = q.listing ∧ Defect.labels p.sorted = Defect.labels q.sorted) := by
  -- Linking sorts first, and distinct orders leave one way of sorting.
  refine ⟨fun m => ?_, execute_perm same, defects_perm same, fun distinct => ?_⟩
  · rw [start, start, link_perm same]
  · rw [listing, listing, sorted_eq_of_perm same distinct]
    exact ⟨rfl, rfl⟩

/-- A program that writes a text and exits, though its last instruction comes first. -/
def farewell : Program :=
  { instructions := [⟨.exit, 9, [.literal (.int 3)]⟩, ⟨.write, 5, [.literal (.string "bye")]⟩] }

/-- The same program with its instructions in the sequence of their orders. -/
def tidyFarewell : Program :=
  { instructions := [⟨.write, 5, [.literal (.string "bye")]⟩, ⟨.exit, 9, [.literal (.int 3)]⟩] }

/-- Either sequence makes the same executions and the same listing. -/
theorem sequence_is_irrelevant_of_farewell :
    farewell.instructions.Perm tidyFarewell.instructions ∧
    (∀ devices fuel m,
      farewell.execute devices fuel m = tidyFarewell.execute devices fuel m) ∧
    farewell.listing = tidyFarewell.listing := by
  -- Both programs have the same three instructions.
  have same : farewell.instructions.Perm tidyFarewell.instructions := by decide
  obtain ⟨_, executed, _, listed⟩ := sequence_is_irrelevant farewell tidyFarewell same
  exact ⟨same, executed, (listed (by decide)).1⟩

end Program

end ThreeAddress
