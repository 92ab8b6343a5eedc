import ThreeAddress.Language.Flaw

/-! The defects of a program are all flaws that can be found without running it. -/

namespace ThreeAddress

/-- A flaw with the order of its instruction, and of the first one where a label is defined. -/
structure Defect where
  order : UInt64
  flaw : Flaw
  first : Option UInt64
  deriving DecidableEq, Repr

namespace Defect

/-- The wording of a defect. -/
def message (d : Defect) : String :=
  match d.first with
  | none => d.flaw.message d.order
  | some first => s!"{d.flaw.message d.order} (first defined at order {first})"

/-- The defect of an order that was seen before, unless it was reported already. -/
def ofOrder (seen reported : List UInt64) (i : Instruction) : List Defect :=
  if i.order ∈ seen ∧ i.order ∉ reported then [⟨i.order, .duplicateOrder, none⟩] else []

/-- The defect of operands that do not fit. -/
def ofOperands (i : Instruction) : List Defect :=
  match i.misfit? with
  | none => []
  | some m => [⟨i.order, .misfit i.opcode m, none⟩]

/-- The defects of orders and operands, given the sets of orders seen before and reported. -/
def structuralFrom (seen reported : List UInt64) : List Instruction → List Defect
  | [] => []
  | i :: rest =>
    -- Only an order that was seen before is reported, and the first report is the only one.
    let reportedNext := if i.order ∈ seen then reported.insert i.order else reported
    ofOrder seen reported i ++ ofOperands i ++
      structuralFrom (seen.insert i.order) reportedNext rest

/-- The defects of orders and operands, where `seen` lists the orders seen before. -/
def structural (seen : List UInt64) (code : List Instruction) : List Defect :=
  structuralFrom seen [] code

/-- The defined labels with the orders of their definitions. -/
def definitions (code : List Instruction) : List (String × UInt64) :=
  code.filterMap fun i => i.definedLabel?.map fun name => (name, i.order)

/-- The defects of labels that are defined again, where `earlier` lists the first definitions. -/
def duplicateLabels (earlier : List (String × UInt64)) : List (String × UInt64) → List Defect
  | [] => []
  | (name, order) :: rest =>
    match earlier.lookup name with
    | some first => ⟨order, .duplicateLabel name, some first⟩ :: duplicateLabels earlier rest
    | none => duplicateLabels ((name, order) :: earlier) rest

/-- The defect of a jump to a label that is never defined. -/
def ofTarget (defined : List (String × UInt64)) (i : Instruction) : Option Defect :=
  i.targetLabel?.bind fun name =>
    if (defined.lookup name).isSome then none else some ⟨i.order, .undefinedLabel name, none⟩

/-- The defects of labels: those defined again come before those never defined. -/
def labels (code : List Instruction) : List Defect :=
  duplicateLabels [] (definitions code) ++ code.filterMap (ofTarget (definitions code))

end Defect

/-- All defects of a program: orders and operands as they were read, then labels by order. -/
def Program.defects (p : Program) : List Defect :=
  -- Only for labels does it matter where an instruction stands.
  Defect.structural [] p.instructions ++ Defect.labels p.sorted

end ThreeAddress
