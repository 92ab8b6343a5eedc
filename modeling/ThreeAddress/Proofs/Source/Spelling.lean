import ThreeAddress.Proofs.Language.Placing
import ThreeAddress.Source.Assembly

/-!
What the words of a line spell. The relation between words and operands leaves out how a line is
taken apart, which is shape first, arguments by position next, and operands last.
-/

namespace ThreeAddress.Source

/-- A word spells an operand in a slot: it has the shape of the slot and denotes the operand. -/
def Spells (slot : Slot) (word : String) (o : Operand) : Prop :=
  ∃ declared text, shaped? slot word = some (declared, text) ∧ Operand.ofText declared text = .ok o

/-- Words spell operands slot by slot. -/
inductive SpellsAll : List Slot → List String → List Operand → Prop where
  | nil : SpellsAll [] [] []
  | cons {slot : Slot} {word : String} {o : Operand} {slots : List Slot} {words : List String}
      {operands : List Operand} (first : Spells slot word o)
      (rest : SpellsAll slots words operands) :
      SpellsAll (slot :: slots) (word :: words) (o :: operands)

/-- There are as many words as slots. -/
theorem SpellsAll.length_eq {slots : List Slot} {words : List String} {operands : List Operand}
    (h : SpellsAll slots words operands) : slots.length = words.length := by
  -- Each word has its slot.
  induction h with
  | nil => rfl
  | cons first rest ih => simp [ih]

/-- Arguments are numbered one after another. -/
theorem shapedArguments_positions {position : Nat} {slots : List Slot} {words : List String}
    {arguments : List Argument} (shaped : shapedArguments position slots words = .ok arguments) :
    arguments.map Argument.position = List.range' position arguments.length := by
  -- Each further slot has the next position.
  induction slots generalizing position words arguments with
  | nil =>
    cases shaped
    rfl
  | cons slot slots ih =>
    cases words with
    | nil =>
      cases shaped
      rfl
    | cons word words =>
      rw [shapedArguments] at shaped
      split at shaped
      · cases shaped
      · -- The first argument has the given position, and the others come after it.
        obtain ⟨others, rest, built⟩ := bind_eq_ok_iff.mp shaped
        cases built
        simp [ih rest, List.range'_succ]

/-- Arguments that were made from words denote what the words spell. -/
theorem spellsAll_of_arguments {position : Nat} {slots : List Slot} {words : List String}
    {arguments : List Argument} {operands : List Operand} (same : slots.length = words.length)
    (shaped : shapedArguments position slots words = .ok arguments)
    (denoted : arguments.mapM Operand.ofArgument = .ok operands) :
    SpellsAll slots words operands := by
  -- One argument is made for each word, and its operand is denoted in the same place.
  induction slots generalizing position words arguments operands with
  | nil =>
    cases words with
    | nil =>
      cases shaped
      cases denoted
      exact .nil
    | cons word words => cases same
  | cons slot slots ih =>
    cases words with
    | nil => cases same
    | cons word words =>
      rw [shapedArguments] at shaped
      split at shaped
      · cases shaped
      · -- One argument was made from the word, and the others from the words behind it.
        rename_i declared text fits
        obtain ⟨others, rest, built⟩ := bind_eq_ok_iff.mp shaped
        cases built
        -- The operands come apart in the same way.
        rw [List.mapM_cons] at denoted
        obtain ⟨o, first, denoted⟩ := bind_eq_ok_iff.mp denoted
        obtain ⟨remaining, later, built⟩ := bind_eq_ok_iff.mp denoted
        cases built
        exact .cons ⟨declared, text, fits, first⟩ (ih (Nat.succ.inj same) rest later)

/-- Words that spell operands make arguments that denote them. -/
theorem SpellsAll.arguments {slots : List Slot} {words : List String} {operands : List Operand}
    (h : SpellsAll slots words operands) (position : Nat) :
    ∃ arguments, shapedArguments position slots words = .ok arguments ∧
      arguments.mapM Operand.ofArgument = .ok operands := by
  -- The shape of each word gives its argument, under whatever position has been reached.
  induction h generalizing position with
  | nil => exact ⟨[], rfl, rfl⟩
  | cons first rest ih =>
    rename_i slot word o slots words operands
    obtain ⟨declared, text, fits, denotes⟩ := first
    obtain ⟨arguments, shaped, denoted⟩ := ih (position + 1)
    refine ⟨{ type := declared, text, position } :: arguments, ?_, ?_⟩
    · rw [shapedArguments, fits]
      exact bind_eq_ok_iff.mpr ⟨arguments, shaped, rfl⟩
    · rw [List.mapM_cons]
      exact bind_eq_ok_iff.mpr ⟨o, denotes, bind_eq_ok_iff.mpr ⟨operands, denoted, rfl⟩⟩

/-- A line makes an instruction exactly when it spells a mnemonic and operands for its slots. -/
theorem instruction_eq_ok_iff {order : UInt64} {mnemonic : String} {words : List String}
    {i : Instruction} :
    instruction order (mnemonic :: words) = .ok i ↔
      ∃ opcode operands, Opcode.ofMnemonic? mnemonic = some opcode ∧
        SpellsAll opcode.signature words operands ∧ i = { opcode, order, operands } := by
  -- Arguments are only a detour: they are made in place, so placing them changes nothing.
  rw [instruction]
  cases named : Opcode.ofMnemonic? mnemonic with
  | none => simp
  | some opcode =>
    simp only [Option.some.injEq, exists_and_left, exists_eq_left']
    constructor
    · intro built
      split at built
      · -- The count is right, so every word was matched with a slot.
        rename_i same
        obtain ⟨arguments, shaped, built⟩ := bind_eq_ok_iff.mp built
        obtain ⟨operands, denoted, rfl⟩ := (Instruction.ofArguments_placed_ok_iff (.refl _)
          (shapedArguments_positions shaped)).mp (mapError_eq_ok_iff.mp built)
        exact ⟨operands, spellsAll_of_arguments same shaped denoted, rfl⟩
      · cases built
    · -- Words that spell operands are as many as the slots, which passes the count.
      rintro ⟨operands, spelled, rfl⟩
      obtain ⟨arguments, shaped, denoted⟩ := spelled.arguments 1
      rw [if_pos spelled.length_eq]
      refine bind_eq_ok_iff.mpr ⟨arguments, shaped, ?_⟩
      rw [(Instruction.ofArguments_placed_ok_iff (.refl _) (shapedArguments_positions shaped)).mpr
        ⟨operands, denoted, rfl⟩]
      rfl

end ThreeAddress.Source
