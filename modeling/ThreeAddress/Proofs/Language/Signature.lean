import Mathlib.Data.List.Forall2
import ThreeAddress.Language.Instruction

/-!
Instructions without a misfit: each slot of the operation has an operand that it accepts. Any other
instruction has the wrong number of operands, or a first one that its slot refuses.
-/

namespace ThreeAddress

/-- No operand is out of place exactly when each fits its slot, as far as both lists go. -/
theorem firstMisfit_eq_none_iff {position : Nat} {slots : List Slot} {operands : List Operand}
    (same : slots.length = operands.length) :
    firstMisfit position slots operands = none ↔
      List.Forall₂ (fun slot o => slot.accepts o = true) slots operands := by
  -- Both lists are walked together, and their lengths agree all the way.
  induction slots generalizing position operands with
  | nil =>
    cases operands with
    | nil => simp [firstMisfit]
    | cons o operands => cases same
  | cons slot slots ih =>
    cases operands with
    | nil => cases same
    | cons o operands =>
      rw [firstMisfit, List.forall₂_cons]
      split
      · -- A fitting operand leaves the question to those behind it.
        rename_i fits
        rw [ih (Nat.succ.inj same)]
        exact (and_iff_right fits).symm
      · rename_i unfit
        simp [unfit]

/-- Operands fit exactly when there is one for each slot, which accepts it. -/
theorem Instruction.misfit?_eq_none_iff {i : Instruction} :
    i.misfit? = none ↔
      List.Forall₂ (fun slot o => slot.accepts o = true) i.opcode.signature i.operands := by
  -- The count is looked at first, and only operands in the right number are matched with slots.
  unfold Instruction.misfit?
  dsimp only
  split
  · rename_i same
    exact firstMisfit_eq_none_iff same
  · rename_i differ
    simp only [reduceCtorEq, false_iff]
    exact fun fits => differ fits.length_eq

/-- A slot refuses the operand at its index, and all slots before it accept theirs. -/
structure FirstRefused (slots : List Slot) (operands : List Operand) (index : Nat) (slot : Slot) :
    Prop where
  asked : slots[index]? = some slot
  refused : ∃ o, operands[index]? = some o ∧ slot.accepts o = false
  accepted : ∀ k s o, k < index → slots[k]? = some s → operands[k]? = some o → s.accepts o = true

/-- Behind an operand that fits, the first refusal is one place further. -/
private theorem firstRefused_cons_iff {first slot : Slot} {slots : List Slot} {o : Operand}
    {operands : List Operand} {index : Nat} (fits : first.accepts o = true) :
    FirstRefused (first :: slots) (o :: operands) (index + 1) slot ↔
      FirstRefused slots operands index slot := by
  -- The operand in front is accepted, and the others move up by one place.
  constructor
  · rintro ⟨asked, refused, accepted⟩
    exact ⟨asked, refused, fun k s p small => accepted (k + 1) s p (Nat.succ_lt_succ small)⟩
  · rintro ⟨asked, refused, accepted⟩
    refine ⟨asked, refused, ?_⟩
    intro k s p small there given
    cases k with
    | zero =>
      cases there
      cases given
      exact fits
    | succ k => exact accepted k s p (Nat.lt_of_succ_lt_succ small) there given

/-- The operand that is reported is the first one that its slot refuses. -/
theorem firstMisfit_eq_some_iff {position : Nat} {slots : List Slot} {operands : List Operand}
    {m : Misfit} :
    firstMisfit position slots operands = some m ↔
      ∃ index slot, m = .slot (position + index) slot ∧ FirstRefused slots operands index slot := by
  -- Both lists are walked together, and the walk stops at the first refusal.
  fun_induction firstMisfit position slots operands with
  | case1 position slot slots o operands fits ih =>
    rw [ih]
    constructor
    · rintro ⟨index, other, rfl, first⟩
      exact ⟨index + 1, other, by rw [Nat.add_right_comm, Nat.add_assoc],
        (firstRefused_cons_iff fits).mpr first⟩
    · rintro ⟨index, other, rfl, first⟩
      cases index with
      | zero =>
        obtain ⟨asked, ⟨p, given, refused⟩, _⟩ := first
        cases asked
        cases given
        exact absurd (fits.symm.trans refused) nofun
      | succ index =>
        exact ⟨index, other, by rw [Nat.add_right_comm, Nat.add_assoc],
          (firstRefused_cons_iff fits).mp first⟩
  | case2 position slot slots o operands unfit =>
    have refused : slot.accepts o = false := Bool.eq_false_iff.mpr unfit
    constructor
    · rintro ⟨⟩
      exact ⟨0, slot, rfl, rfl, ⟨o, rfl, refused⟩, fun k s p small => absurd small k.not_lt_zero⟩
    · rintro ⟨index, other, rfl, first⟩
      cases index with
      | zero =>
        cases first.asked
        rfl
      | succ index =>
        have fits := first.accepted 0 slot o (Nat.succ_pos index) rfl rfl
        exact absurd fits unfit
  | case3 slots position operands short =>
    -- Where one of the lists has ended, there is no pair to be refused.
    refine iff_of_false nofun ?_
    rintro ⟨index, slot, rfl, asked, ⟨o, given, _⟩, _⟩
    cases slots with
    | nil => cases asked
    | cons first slots =>
      cases operands with
      | nil => cases given
      | cons o operands => exact short first slots o operands rfl rfl

/-- Operands do not fit if there are too many or too few, or else if a slot refuses one. -/
theorem Instruction.misfit?_eq_some_iff {i : Instruction} {m : Misfit} :
    i.misfit? = some m ↔
      (i.operands.length ≠ i.opcode.signature.length ∧
        m = .count i.opcode.signature.length i.operands.length) ∨
      (i.operands.length = i.opcode.signature.length ∧
        ∃ index slot, m = .slot (1 + index) slot ∧
          FirstRefused i.opcode.signature i.operands index slot) := by
  -- The numbers are compared first, and slots are looked at only if they agree.
  unfold Instruction.misfit?
  dsimp only
  split
  · rename_i same
    rw [firstMisfit_eq_some_iff]
    simp [same]
  · rename_i differ
    simp [Ne.symm differ, eq_comm]

namespace Instruction

variable {i : Instruction}

/-- Where nothing is out of place, every slot has an operand that it accepts. -/
theorem operand_of_slot (fits : i.misfit? = none) {index : Nat} {slot : Slot}
    (asked : i.opcode.signature[index]? = some slot) :
    ∃ o, i.operands[index]? = some o ∧ slot.accepts o = true := by
  -- Slots and operands correspond one by one, so that an index finds both.
  have pairs := misfit?_eq_none_iff.mp fits
  generalize i.opcode.signature = slots at asked pairs
  generalize i.operands = operands at pairs ⊢
  induction pairs generalizing index with
  | nil => cases asked
  | @cons slot o slots operands first rest ih =>
    cases index with
    | zero =>
      cases asked
      exact ⟨o, rfl, first⟩
    | succ index => exact ih asked

/-- A definition that is not out of place consists of the label that it defines. -/
theorem definedLabel?_eq_some_iff (fits : i.misfit? = none) {name : String} :
    i.definedLabel? = some name ↔ i.opcode = .label ∧ i.operands = [.label name] := by
  constructor
  · intro defined
    -- Only definitions define, and theirs is the only slot.
    have op : i.opcode = .label := by
      by_contra other
      simp [definedLabel?, other] at defined
    have pairs := misfit?_eq_none_iff.mp fits
    simp only [op, Opcode.signature] at pairs
    obtain ⟨o, operands, accepted, rest, same⟩ := List.forall₂_cons_left_iff.mp pairs
    rw [List.forall₂_nil_left_iff.mp rest] at same
    cases o with
    | label other =>
      simp only [definedLabel?, label?, op, same] at defined
      cases defined
      exact ⟨op, same⟩
    | literal value => cases accepted
    | var x => cases accepted
    | type t => cases accepted
  · rintro ⟨op, operands⟩
    simp [definedLabel?, label?, op, operands]

end Instruction

end ThreeAddress
