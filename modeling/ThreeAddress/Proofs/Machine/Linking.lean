import ThreeAddress.Machine.Image
import ThreeAddress.Proofs.Language.Defects
import ThreeAddress.Proofs.Language.Sorted
import ThreeAddress.Proofs.Result

/-! Linking stops at a flaw that the defects of the program list, and only if there is one. -/

namespace ThreeAddress

/-- Among ascending instructions, neighbours share an order exactly when any two of them do. -/
theorem sharedOrder?_eq_none_iff {code : List Instruction}
    (ascending : code.Pairwise fun i j => i.order ≤ j.order) :
    sharedOrder? code = none ↔ (code.map Instruction.order).Nodup := by
  fun_induction sharedOrder? code with
  | case1 i j rest same => simp [same]
  | case2 i j rest differ ih =>
    -- All later orders are at least the second one, which is above the first.
    have unseen : i.order ∉ (j :: rest).map Instruction.order := by
      intro member
      obtain ⟨k, later, same⟩ := List.mem_map.mp member
      have first : i.order ≤ j.order := List.rel_of_pairwise_cons ascending (by simp)
      have second : j.order ≤ k.order := by
        rcases List.mem_cons.mp later with rfl | later
        · exact UInt64.le_refl _
        · exact List.rel_of_pairwise_cons ascending.of_cons later
      exact differ (UInt64.le_antisymm first (same ▸ second))
    rw [ih ascending.of_cons]
    exact ⟨fun distinct => List.nodup_cons.mpr ⟨unseen, distinct⟩,
      fun distinct => (List.nodup_cons.mp distinct).2⟩
  | case3 code short =>
    -- Fewer than two instructions have no neighbours and cannot repeat an order.
    cases code with
    | nil => simp
    | cons i rest =>
      cases rest with
      | nil => simp
      | cons j rest => exact absurd rfl (short i j rest)

/-- The order that neighbours share occurs at least twice. -/
theorem count_of_sharedOrder? {code : List Instruction} {order : UInt64}
    (shared : sharedOrder? code = some order) :
    2 ≤ (code.map Instruction.order).count order := by
  -- The neighbours that share the order are two occurrences of it.
  fun_induction sharedOrder? code with
  | case1 i j rest same =>
    cases shared
    simp [same]
  | case2 i j rest differ ih =>
    -- One more instruction in front takes no occurrence away.
    rw [List.map_cons]
    exact Nat.le_trans (ih shared) List.count_le_count_cons
  | case3 code short => cases shared

/-- Two tables name the same labels, whatever they tell about them. -/
def SameLabels (earlier : List (String × UInt64)) (labels : Labels) : Prop :=
  ∀ name, (earlier.lookup name).isSome = (labels.lookup name).isSome

/-- Empty tables name the same labels, namely none. -/
theorem SameLabels.empty : SameLabels [] [] :=
  fun _ => rfl

/-- Tables that name the same labels still do so after one more label is added to both. -/
theorem SameLabels.add {earlier : List (String × UInt64)} {labels : Labels}
    (same : SameLabels earlier labels) (name : String) (order : UInt64) (position : Nat) :
    SameLabels ((name, order) :: earlier) ((name, position) :: labels) := by
  -- The added label is found in both tables, and every other label where it was before.
  intro other
  simp only [List.lookup_cons]
  split
  · rfl
  · exact same other

open Defect

/-- Where linking goes through, all operands fit and no label is defined again. -/
theorem linkFrom_ok {position : Nat} {earlier : List (String × UInt64)} {labels table : Labels}
    {code : List Instruction} (same : SameLabels earlier labels)
    (linked : linkFrom position labels code = .ok table) :
    (∀ i ∈ code, i.misfit? = none) ∧ duplicateLabels earlier (definitions code) = [] := by
  -- Both passes add a label to their tables at the same instruction.
  fun_induction linkFrom position labels code generalizing earlier with
  | case1 position labels => simp [definitions, duplicateLabels]
  | case2 position labels i rest m unfit => cases linked
  | case3 position labels i rest fits plain ih =>
    obtain ⟨others, distinct⟩ := ih same linked
    simpa [definitions_cons, plain, fits, distinct] using others
  | case4 position labels i rest fits name defined known => cases linked
  | case5 position labels i rest fits name defined fresh ih =>
    obtain ⟨others, distinct⟩ := ih (same.add name i.order position) linked
    -- A label that is new to one table is new to the other.
    have absent : earlier.lookup name = none := by
      rw [← Option.not_isSome_iff_eq_none, same name]
      exact fresh
    simpa [definitions_cons, defined, fits, duplicateLabels, absent, distinct] using others

/-- Where linking stops, it names operands that do not fit or a label that is defined again. -/
theorem linkFrom_error {position : Nat} {earlier : List (String × UInt64)} {labels : Labels}
    {code : List Instruction} {fault : Fault} (same : SameLabels earlier labels)
    (failed : linkFrom position labels code = .error fault) :
    (∃ i ∈ code, ∃ m, i.misfit? = some m ∧
      fault = .raised i.order (.flaw (.misfit i.opcode m))) ∨
    ∃ order name first, ⟨order, .duplicateLabel name, some first⟩ ∈
      duplicateLabels earlier (definitions code) ∧
        fault = .raised order (.flaw (.duplicateLabel name)) := by
  -- The pass stops at the first instruction that is at fault, so earlier ones only move it on.
  fun_induction linkFrom position labels code generalizing earlier with
  | case1 position labels => cases failed
  | case2 position labels i rest m unfit =>
    cases failed
    exact .inl ⟨i, List.mem_cons_self, m, unfit, rfl⟩
  | case3 position labels i rest fits plain ih =>
    rcases ih same failed with ⟨j, member, m, unfit, named⟩ | later
    · exact .inl ⟨j, List.mem_cons_of_mem i member, m, unfit, named⟩
    · exact .inr (by simpa [definitions_cons, plain] using later)
  | case4 position labels i rest fits name defined known =>
    cases failed
    -- The other table knows where the label was defined first.
    obtain ⟨first, found⟩ := Option.isSome_iff_exists.mp ((same name).trans known)
    exact .inr ⟨i.order, name, first, by simp [definitions_cons, defined, duplicateLabels, found]⟩
  | case5 position labels i rest fits name defined fresh ih =>
    have absent : earlier.lookup name = none := by
      rw [← Option.not_isSome_iff_eq_none, same name]
      exact fresh
    rcases ih (same.add name i.order position) failed with ⟨j, member, m, unfit, named⟩ | later
    · exact .inl ⟨j, List.mem_cons_of_mem i member, m, unfit, named⟩
    · exact .inr (by simpa [definitions_cons, defined, duplicateLabels, absent] using later)

/-- The table that linking builds names the labels it began with and those that are defined. -/
theorem linkFrom_labels {position : Nat} {labels table : Labels} {code : List Instruction}
    (linked : linkFrom position labels code = .ok table) (name : String) :
    (table.lookup name).isSome =
      ((labels.lookup name).isSome || ((definitions code).lookup name).isSome) := by
  -- Each step of the pass moves at most one label from the definitions to the table.
  fun_induction linkFrom position labels code with
  | case1 position labels =>
    cases linked
    simp [definitions]
  | case2 position labels i rest m unfit => cases linked
  | case3 position labels i rest fits plain ih => simp [ih linked, definitions_cons, plain]
  | case4 position labels i rest fits label defined known => cases linked
  | case5 position labels i rest fits label defined fresh ih =>
    rw [ih linked]
    simp only [definitions_cons, defined, Option.map_some, Option.toList_some,
      List.singleton_append, List.lookup_cons]
    split <;> simp

/-- The table that linking builds tells the positions it began with and those of definitions. -/
theorem linkFrom_lookup {position : Nat} {labels table : Labels} {code : List Instruction}
    (linked : linkFrom position labels code = .ok table) (name : String) (target : Nat) :
    table.lookup name = some target ↔ labels.lookup name = some target ∨
      ∃ k i, target = position + k ∧ code[k]? = some i ∧ i.definedLabel? = some name := by
  -- Each instruction is the first of those that are left, and the others are one place further.
  have shift {i : Instruction} {rest : List Instruction} {position : Nat} :
      (∃ k j, target = position + k ∧ (i :: rest)[k]? = some j ∧ j.definedLabel? = some name) ↔
        (target = position ∧ i.definedLabel? = some name) ∨
          ∃ k j, target = position + 1 + k ∧ rest[k]? = some j ∧ j.definedLabel? = some name := by
    constructor
    · rintro ⟨_ | k, j, same, found, defined⟩
      · cases found
        exact .inl ⟨same, defined⟩
      · exact .inr ⟨k, j, by omega, found, defined⟩
    · rintro (⟨same, defined⟩ | ⟨k, j, same, found, defined⟩)
      · exact ⟨0, i, same, rfl, defined⟩
      · exact ⟨k + 1, j, by omega, found, defined⟩
  fun_induction linkFrom position labels code with
  | case1 position labels =>
    cases linked
    simp
  | case2 position labels i rest m unfit => cases linked
  | case3 position labels i rest fits plain ih =>
    rw [shift]
    refine (ih linked).trans ?_
    simp [plain]
  | case4 position labels i rest fits label defined known => cases linked
  | case5 position labels i rest fits label defined fresh ih =>
    rw [shift]
    refine (ih linked).trans ?_
    rw [List.lookup_cons]
    split
    · -- The label is new, so that its definition is the only place to be told.
      rename_i same
      have absent := Option.not_isSome_iff_eq_none.mp fresh
      rw [beq_iff_eq] at same
      subst same
      simp [absent, defined, eq_comm]
    · rename_i differ
      have other : label ≠ name := by
        rintro rfl
        simp at differ
      simp [defined, other]

namespace Program

variable {p : Program}

/-- An image holds the sorted instructions and the table that linking them builds. -/
theorem link_eq_ok_iff {image : Image} :
    p.link = .ok image ↔ linkCode p.sorted = .ok image.labels ∧ image.code = p.sorted.toArray := by
  -- Only building the table can fail.
  unfold Program.link
  rw [bind_eq_ok_iff]
  constructor
  · rintro ⟨labels, linked, built⟩
    cases built
    exact ⟨linked, rfl⟩
  · rintro ⟨linked, code⟩
    exact ⟨image.labels, linked, by rw [← code]; rfl⟩

/-- Linking fails as its pass over the sorted instructions fails. -/
theorem link_eq_error_iff {fault : Fault} :
    p.link = .error fault ↔ linkCode p.sorted = .error fault := by
  -- Only building the table can fail.
  unfold Program.link
  cases linkCode p.sorted <;> simp [Bind.bind, Except.bind, Pure.pure, Except.pure]

private theorem count_sorted_orders (p : Program) (order : UInt64) :
    (p.sorted.map Instruction.order).count order =
      (p.instructions.map Instruction.order).count order :=
  -- Sorting moves instructions about and keeps their orders.
  (p.sorted_perm.map Instruction.order).count_eq order

/-- A program that links has sound orders and operands and defines no label twice. -/
theorem sound_of_link {image : Image} (linked : p.link = .ok image) :
    structural [] p.instructions = [] ∧ duplicateLabels [] (definitions p.sorted) = [] := by
  -- The neighbours show that no order repeats, and the pass that operands and labels are sound.
  obtain ⟨linked, _⟩ := link_eq_ok_iff.mp linked
  unfold linkCode at linked
  split at linked
  · cases linked
  · rename_i unshared
    -- Both passes began with tables that name no label.
    obtain ⟨fits, distinct⟩ := linkFrom_ok SameLabels.empty linked
    refine ⟨structural_eq_nil_iff.mpr ⟨?_, ?_⟩, distinct⟩
    · exact fun i member => fits i (mem_sorted.mpr member)
    · rw [← (p.sorted_perm.map Instruction.order).nodup_iff]
      exact (sharedOrder?_eq_none_iff p.sorted_ascending).mp unshared

/-- What stops linking is reported by one of the passes that look for it. -/
theorem reported_of_link {fault : Fault} (failed : p.link = .error fault) :
    ∃ d, (d ∈ structural [] p.instructions ∨ d ∈ duplicateLabels [] (definitions p.sorted)) ∧
      fault = .raised d.order (.flaw d.flaw) ∧
        (d.first = none ∨ ∃ name, d.flaw = .duplicateLabel name) := by
  -- Linking stops at a shared order or in its pass, and each has its report.
  have failed := link_eq_error_iff.mp failed
  unfold linkCode at failed
  split at failed
  · rename_i order shared
    cases failed
    -- Sorting does not change how often the order occurs.
    have twice := count_of_sharedOrder? shared
    rw [count_sorted_orders] at twice
    have reported : ⟨order, .duplicateOrder, none⟩ ∈ structural [] p.instructions :=
      mem_structural_of_repeated twice
    exact ⟨_, .inl reported, rfl, .inl rfl⟩
  · rcases linkFrom_error SameLabels.empty failed with
      ⟨i, member, m, unfit, rfl⟩ | ⟨order, name, first, reported, rfl⟩
    · exact ⟨_, .inl (mem_structural_of_misfit (mem_sorted.mp member) unfit), rfl, .inl rfl⟩
    · exact ⟨_, .inr reported, rfl, .inr ⟨name, rfl⟩⟩

/-- The table of an image names exactly the labels that the program defines. -/
theorem link_labels {image : Image} (linked : p.link = .ok image) (name : String) :
    (image.labels.lookup name).isSome = ((definitions p.sorted).lookup name).isSome := by
  -- The pass begins with an empty table, so it holds what is defined.
  obtain ⟨linked, _⟩ := link_eq_ok_iff.mp linked
  unfold linkCode at linked
  split at linked
  · cases linked
  · simpa using linkFrom_labels linked name

/-- The instructions of an image are those of the program. -/
theorem mem_of_link {image : Image} (linked : p.link = .ok image) {position : Nat}
    {i : Instruction} (found : image.code[position]? = some i) : i ∈ p.instructions := by
  -- The image holds the sorted instructions, and sorting adds none.
  rw [(link_eq_ok_iff.mp linked).2, List.getElem?_toArray] at found
  exact mem_sorted.mp (List.mem_of_getElem? found)

/-- An image has as many instructions as the program. -/
theorem link_size {image : Image} (linked : p.link = .ok image) :
    image.code.size = p.instructions.length := by
  -- The image holds the sorted instructions, and sorting keeps their number.
  rw [(link_eq_ok_iff.mp linked).2, List.size_toArray]
  exact p.sorted_perm.length_eq

/-- The operands of a program that links fit their operations. -/
theorem fits_of_link {image : Image} (linked : p.link = .ok image) {i : Instruction}
    (member : i ∈ p.instructions) : i.misfit? = none :=
  (structural_eq_nil_iff.mp (sound_of_link linked).1).1 i member

/-- The table of an image tells the position of the instruction that defines a label. -/
theorem link_lookup {image : Image} (linked : p.link = .ok image) (name : String)
    (position : Nat) : image.labels.lookup name = some position ↔
      ∃ i, image.code[position]? = some i ∧ i.definedLabel? = some name := by
  -- The pass begins at position zero and with an empty table, so every entry is a definition.
  obtain ⟨linked, code⟩ := link_eq_ok_iff.mp linked
  unfold linkCode at linked
  split at linked
  · cases linked
  · rw [code, linkFrom_lookup linked name position]
    simp

end Program

end ThreeAddress
