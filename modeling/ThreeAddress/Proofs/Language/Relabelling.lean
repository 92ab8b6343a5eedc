import Mathlib.Data.Prod.Basic
import ThreeAddress.Language.Defect

/-!
Other names for the labels of a program. A map that keeps names apart makes no difference to which
operands fit, to the sequence of the instructions and to where defects are, but renames them.
-/

namespace ThreeAddress

/-- An operand in which a map is applied to the name of a label. -/
def Operand.relabel (g : String → String) : Operand → Operand
  | label name => label (g name)
  | other => other

/-- An instruction in which a map is applied to all labels among the operands. -/
def Instruction.relabel (g : String → String) (i : Instruction) : Instruction :=
  { i with operands := i.operands.map (Operand.relabel g) }

/-- A program in which a map is applied to all labels. -/
def Program.relabel (g : String → String) (p : Program) : Program :=
  { instructions := p.instructions.map (Instruction.relabel g) }

/-- A flaw in which a map is applied to the label that it names, if it names one. -/
def Flaw.relabel (g : String → String) : Flaw → Flaw
  | duplicateLabel label => duplicateLabel (g label)
  | undefinedLabel label => undefinedLabel (g label)
  | other => other

/-- A defect in which a map is applied to the label that its flaw names. -/
def Defect.relabel (g : String → String) (d : Defect) : Defect :=
  { d with flaw := d.flaw.relabel g }

/-- A table in which a map is applied to the names, and what it tells about them is kept. -/
def relabelled {α : Type} (g : String → String) (table : List (String × α)) : List (String × α) :=
  table.map (Prod.map g id)

variable {g : String → String}

/-- A slot looks at the kind of an operand, and never at a name. -/
theorem Slot.accepts_relabel (slot : Slot) (o : Operand) :
    slot.accepts (o.relabel g) = slot.accepts o := by
  -- Renaming keeps the kind of every operand.
  cases slot <;> cases o <;> rfl

/-- The first operand that does not fit stands where it did. -/
theorem firstMisfit_relabel (position : Nat) (slots : List Slot) (operands : List Operand) :
    firstMisfit position slots (operands.map (Operand.relabel g)) =
      firstMisfit position slots operands := by
  -- Each slot accepts what it accepted before, as far as both lists go.
  induction slots generalizing position operands with
  | nil =>
    cases operands with
    | nil => rfl
    | cons o operands => rfl
  | cons slot slots ih =>
    cases operands with
    | nil => rfl
    | cons o operands =>
      rw [List.map_cons, firstMisfit, firstMisfit, slot.accepts_relabel, ih]

namespace Instruction

/-- Operands under other labels fit as they did before. -/
theorem misfit?_relabel (i : Instruction) : (i.relabel g).misfit? = i.misfit? := by
  -- Renaming keeps the number of the operands and what is wrong with each.
  simp only [misfit?, relabel, List.length_map, firstMisfit_relabel]

/-- The label of an instruction has its new name. -/
theorem label?_relabel (i : Instruction) : (i.relabel g).label? = i.label?.map g := by
  -- Labels are looked for in first place, and stay there.
  obtain ⟨opcode, order, operands⟩ := i
  unfold label? relabel
  dsimp only
  split
  · cases operands with
    | nil => rfl
    | cons o rest => cases o <;> rfl
  · rfl

/-- The label that an instruction defines has its new name. -/
theorem definedLabel?_relabel (i : Instruction) :
    (i.relabel g).definedLabel? = i.definedLabel?.map g := by
  -- The operation decides whether a label is defined, and it is not renamed.
  rw [definedLabel?, definedLabel?, label?_relabel]
  split <;> simp_all [relabel]

/-- The label at which an instruction may continue has its new name. -/
theorem targetLabel?_relabel (i : Instruction) :
    (i.relabel g).targetLabel? = i.targetLabel?.map g := by
  -- The operation decides whether a label is a target, and it is not renamed.
  rw [targetLabel?, targetLabel?, label?_relabel]
  split <;> simp_all [relabel]

end Instruction

/-- Under names that are kept apart, a table tells what it told before. -/
theorem lookup_relabelled {α : Type} (inj : Function.Injective g) (table : List (String × α))
    (name : String) : (relabelled g table).lookup (g name) = table.lookup name := by
  -- Names are compared with the same answer before and after.
  induction table with
  | nil => rfl
  | cons entry rest ih =>
    have same : (g name == g entry.1) = (name == entry.1) := by
      rw [Bool.eq_iff_iff, beq_iff_eq, beq_iff_eq, inj.eq_iff]
    rw [relabelled, List.map_cons, List.lookup_cons, List.lookup_cons, ← relabelled, ih]
    simp only [Prod.map_fst, Prod.map_snd, same, id]

namespace Defect

private theorem structuralFrom_relabel (seen reported : List UInt64) (code : List Instruction) :
    structuralFrom seen reported (code.map (Instruction.relabel g)) =
      (structuralFrom seen reported code).map (relabel g) := by
  -- A new name changes neither the order of an instruction nor whether its operands fit.
  induction code generalizing seen reported with
  | nil => rfl
  | cons i rest ih =>
    have orders :
        ofOrder seen reported (i.relabel g) = (ofOrder seen reported i).map (relabel g) := by
      change ofOrder seen reported i = _
      unfold ofOrder
      split <;> rfl
    have operands : ofOperands (i.relabel g) = (ofOperands i).map (relabel g) := by
      unfold ofOperands
      rw [i.misfit?_relabel]
      cases i.misfit? <;> rfl
    rw [List.map_cons, structuralFrom, structuralFrom, orders, operands, List.map_append,
      List.map_append]
    exact congrArg _ (ih _ _)

/-- Orders and operands have their defects as before, and no label is named in them. -/
theorem structural_relabel (code : List Instruction) :
    structural [] (code.map (Instruction.relabel g)) = (structural [] code).map (relabel g) :=
  structuralFrom_relabel [] [] code

/-- Labels are defined where they were, under their new names. -/
theorem definitions_relabel (code : List Instruction) :
    definitions (code.map (Instruction.relabel g)) = relabelled g (definitions code) := by
  -- Each instruction keeps its entry, with the new name in it.
  rw [definitions, definitions, relabelled, List.filterMap_map, List.map_filterMap]
  congr 1
  funext i
  change ((i.relabel g).definedLabel?.map fun name => (name, i.order)) = _
  rw [i.definedLabel?_relabel]
  cases i.definedLabel? <;> rfl

/-- Labels are defined again where they were, under their new names. -/
theorem duplicateLabels_relabel (inj : Function.Injective g)
    (earlier rest : List (String × UInt64)) :
    duplicateLabels (relabelled g earlier) (relabelled g rest) =
      (duplicateLabels earlier rest).map (relabel g) := by
  -- A definition is known to the one table exactly if it is known to the other.
  induction rest generalizing earlier with
  | nil => rfl
  | cons entry rest ih =>
    obtain ⟨name, order⟩ := entry
    have known := lookup_relabelled inj earlier name
    change duplicateLabels (relabelled g earlier) ((g name, order) :: relabelled g rest) = _
    rw [duplicateLabels, duplicateLabels, known]
    cases earlier.lookup name with
    | some first => exact congrArg (_ :: ·) (ih earlier)
    | none => exact ih ((name, order) :: earlier)

/-- A jump to a label that is never defined is one under any names. -/
theorem ofTarget_relabel (inj : Function.Injective g) (defined : List (String × UInt64))
    (i : Instruction) :
    ofTarget (relabelled g defined) (i.relabel g) = (ofTarget defined i).map (relabel g) := by
  -- A name is found among new names exactly if it was found among the old ones.
  unfold ofTarget
  rw [i.targetLabel?_relabel]
  cases i.targetLabel? with
  | none => rfl
  | some name =>
    simp only [Option.map_some, Option.bind_some, lookup_relabelled inj]
    split <;> rfl

/-- The defects of labels are the same under new names. -/
theorem labels_relabel (inj : Function.Injective g) (code : List Instruction) :
    labels (code.map (Instruction.relabel g)) = (labels code).map (relabel g) := by
  -- Both parts of the report are renamed, one after the other.
  have again := duplicateLabels_relabel inj [] (definitions code)
  have never : (code.map (Instruction.relabel g)).filterMap (ofTarget (relabelled g
      (definitions code))) = (code.filterMap (ofTarget (definitions code))).map (relabel g) := by
    rw [List.filterMap_map, List.map_filterMap]
    congr 1
    funext i
    exact ofTarget_relabel inj (definitions code) i
  rw [labels, labels, definitions_relabel, List.map_append, never]
  exact congrArg (· ++ _) again

end Defect

namespace Program

/-- Orders are not renamed, so that a program is sorted as it was. -/
theorem sorted_relabel (p : Program) :
    (p.relabel g).sorted = p.sorted.map (Instruction.relabel g) := by
  -- The sort asks only for comparisons of orders.
  refine (List.map_mergeSort fun i _ j _ => ?_).symm
  rfl

/-- A program under other names has the same defects in the same sequence, under these names. -/
theorem defects_relabel (inj : Function.Injective g) (p : Program) :
    (p.relabel g).defects = p.defects.map (Defect.relabel g) := by
  -- The sort looks at orders alone, so that both passes see the same instructions.
  rw [defects, defects, sorted_relabel, Defect.labels_relabel inj, List.map_append]
  exact congrArg (· ++ _) (Defect.structural_relabel p.instructions)

end Program

end ThreeAddress
