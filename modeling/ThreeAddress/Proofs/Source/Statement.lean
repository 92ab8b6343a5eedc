import ThreeAddress.Proofs.Source.Grammar

/-!
Lines of words. A line is a statement, which stands for an operation with its operands, or it has
one problem, which is the first that a check for operation, count, shapes and values meets.
-/

namespace ThreeAddress.Source

/-- The leftmost word that something is wrong with, and its slot. -/
inductive Leftmost (wrong : Slot → String → Prop) :
    List Slot → List String → Slot → String → Prop where
  | here {slot : Slot} {word : String} {slots : List Slot} {words : List String}
      (bad : wrong slot word) : Leftmost wrong (slot :: slots) (word :: words) slot word
  | behind {slot other : Slot} {word sound : String} {slots : List Slot} {words : List String}
      (fine : ¬ wrong other sound) (rest : Leftmost wrong slots words slot word) :
      Leftmost wrong (other :: slots) (sound :: words) slot word

/-- Words mean operands slot by slot. -/
inductive MeansAll : List Slot → List String → List Operand → Prop where
  | nil : MeansAll [] [] []
  | cons {slot : Slot} {word : String} {o : Operand} {slots : List Slot} {words : List String}
      {operands : List Operand} (first : Means slot word o)
      (rest : MeansAll slots words operands) :
      MeansAll (slot :: slots) (word :: words) (o :: operands)

/-- A line that is a statement: a word that names an operation, and a word for each operand. -/
inductive Statement : List String → Opcode → List Operand → Prop where
  | intro {mnemonic : String} {words : List String} {opcode : Opcode} {operands : List Operand}
      (named : Names mnemonic opcode) (meant : MeansAll opcode.signature words operands) :
      Statement (mnemonic :: words) opcode operands

/-- The problem of a line that is no statement, where each check presupposes those before it. -/
inductive Faulty : List String → Problem → Prop where
  | operation {mnemonic : String} {words : List String}
      (nameless : ∀ opcode, ¬ Names mnemonic opcode) :
      Faulty (mnemonic :: words) (.unknownOperation mnemonic)
  | count {mnemonic : String} {words : List String} {opcode : Opcode}
      (named : Names mnemonic opcode) (differ : opcode.signature.length ≠ words.length) :
      Faulty (mnemonic :: words) (.operandCount opcode opcode.signature.length words.length)
  | shape {mnemonic word : String} {words : List String} {opcode : Opcode} {slot : Slot}
      (named : Names mnemonic opcode) (same : opcode.signature.length = words.length)
      (first : Leftmost (fun slot word => ¬ Shaped slot word) opcode.signature words slot word) :
      Faulty (mnemonic :: words) (.shape word slot)
  | invalid {mnemonic word : String} {words : List String} {opcode : Opcode} {slot : Slot}
      {e : ArgumentError} (named : Names mnemonic opcode)
      (shaped : List.Forall₂ Shaped opcode.signature words)
      (first : Leftmost Valueless opcode.signature words slot word)
      (refused : Refused slot word e) : Faulty (mnemonic :: words) (.invalid e)

/-- Words spell operands exactly as they mean them. -/
theorem spellsAll_iff {slots : List Slot} {words : List String} {operands : List Operand} :
    SpellsAll slots words operands ↔ MeansAll slots words operands := by
  -- Word by word, to spell an operand is to mean it.
  constructor
  · intro spelled
    induction spelled with
    | nil => exact .nil
    | cons first rest ih => exact .cons (spells_iff.mp first) ih
  · intro meant
    induction meant with
    | nil => exact .nil
    | cons first rest ih => exact .cons (spells_iff.mpr first) ih

/-- Making arguments of words fails at the leftmost word without the shape of its slot. -/
theorem shapedArguments_eq_error_iff {position : Nat} {slots : List Slot} {words : List String}
    {problem : Problem} :
    shapedArguments position slots words = .error problem ↔
      ∃ slot word, Leftmost (fun slot word => ¬ Shaped slot word) slots words slot word ∧
        problem = .shape word slot := by
  -- Words are looked at from the left, and the first without a shape stops it.
  induction slots generalizing position words with
  | nil =>
    refine iff_of_false nofun ?_
    rintro ⟨_, _, ⟨⟩, _⟩
  | cons slot slots ih =>
    cases words with
    | nil =>
      refine iff_of_false nofun ?_
      rintro ⟨_, _, ⟨⟩, _⟩
    | cons word words =>
      rw [shapedArguments]
      split
      · -- A word without the shape is the leftmost one, for all before it have been passed.
        rename_i unread
        have bad := shaped?_eq_none_iff.mp unread
        constructor
        · intro failed
          cases failed
          exact ⟨slot, word, .here bad, rfl⟩
        · rintro ⟨_, _, first, rfl⟩
          cases first with
          | here => rfl
          | behind fine => exact absurd bad fine
      · rename_i declared text read
        have fine : ¬ ¬ Shaped slot word := fun bad =>
          bad ⟨declared, text, shaped?_eq_some_iff.mp read⟩
        rw [bind_eq_error_iff, ih]
        constructor
        · rintro (⟨later, found, first, rfl⟩ | ⟨_, _, failed⟩)
          · exact ⟨later, found, .behind fine first, rfl⟩
          · cases failed
        · rintro ⟨later, found, first, rfl⟩
          cases first with
          | here bad => exact absurd bad fine
          | behind _ rest => exact .inl ⟨later, found, rest, rfl⟩

/-- Words of which arguments are made have the shapes of their slots. -/
theorem shapedArguments_shaped {position : Nat} {slots : List Slot} {words : List String}
    {arguments : List Argument} (same : slots.length = words.length)
    (made : shapedArguments position slots words = .ok arguments) :
    List.Forall₂ Shaped slots words := by
  -- A word without its shape would have ended it.
  induction slots generalizing position words arguments with
  | nil =>
    cases words with
    | nil => exact .nil
    | cons word words => cases same
  | cons slot slots ih =>
    cases words with
    | nil => cases same
    | cons word words =>
      rw [shapedArguments] at made
      split at made
      · cases made
      · rename_i declared text read
        obtain ⟨_, others, _⟩ := bind_eq_ok_iff.mp made
        exact .cons ⟨declared, text, shaped?_eq_some_iff.mp read⟩ (ih (Nat.succ.inj same) others)

/-- Where all words have their shapes, arguments are made of them. -/
theorem shapedArguments_of_shaped {slots : List Slot} {words : List String}
    (shaped : List.Forall₂ Shaped slots words) (position : Nat) :
    ∃ arguments, shapedArguments position slots words = .ok arguments := by
  -- Each word shows the argument that is made of it.
  induction shaped generalizing position with
  | nil => exact ⟨[], rfl⟩
  | cons first rest ih =>
    obtain ⟨declared, text, shows⟩ := first
    obtain ⟨others, made⟩ := ih (position + 1)
    rw [shapedArguments, shaped?_eq_some_iff.mpr shows]
    exact ⟨_, bind_eq_ok_iff.mpr ⟨others, made, rfl⟩⟩

/-- Decoding the arguments that are made of words fails at the leftmost word that is refused. -/
theorem decoding_eq_error_iff {position : Nat} {slots : List Slot} {words : List String}
    {arguments : List Argument} (made : shapedArguments position slots words = .ok arguments)
    {e : ArgumentError} :
    arguments.mapM Operand.ofArgument = .error e ↔
      ∃ slot word, Leftmost Valueless slots words slot word ∧ Refused slot word e := by
  -- Arguments stand in the sequence of their words, and are decoded in that sequence.
  induction slots generalizing position words arguments with
  | nil =>
    cases made
    refine iff_of_false nofun ?_
    rintro ⟨_, _, ⟨⟩, _⟩
  | cons slot slots ih =>
    cases words with
    | nil =>
      cases made
      refine iff_of_false nofun ?_
      rintro ⟨_, _, ⟨⟩, _⟩
    | cons word words =>
      rw [shapedArguments] at made
      split at made
      · cases made
      · rename_i declared text read
        obtain ⟨others, rest, built⟩ := bind_eq_ok_iff.mp made
        cases built
        -- The first word is refused, or it is fine and one behind it is.
        rw [List.mapM_cons, bind_eq_error_iff]
        constructor
        · rintro (failed | ⟨o, decoded, failed⟩)
          · have refused := (refused_iff read).mp failed
            exact ⟨slot, word, .here ⟨e, refused⟩, refused⟩
          · have fine : ¬ Valueless slot word := by
              rintro ⟨e, refused⟩
              cases decoded.symm.trans ((refused_iff read).mpr refused)
            rcases bind_eq_error_iff.mp failed with failed | ⟨_, _, failed⟩
            · obtain ⟨later, found, first, refused⟩ := (ih rest).mp failed
              exact ⟨later, found, .behind fine first, refused⟩
            · cases failed
        · rintro ⟨later, found, first, refused⟩
          cases first with
          | here => exact .inl ((refused_iff read).mpr refused)
          | behind fine first =>
            cases decoded : Operand.ofText declared text with
            | error e => exact absurd ⟨e, (refused_iff read).mp decoded⟩ fine
            | ok o =>
              refine .inr ⟨o, decoded, bind_eq_error_iff.mpr (.inl ?_)⟩
              exact (ih rest).mpr ⟨later, found, first, refused⟩

/-- A line makes an instruction exactly if it is a statement, and the order is the given one. -/
theorem instruction_ok_iff {order : UInt64} {words : List String} {i : Instruction} :
    instruction order words = .ok i ↔ Statement words i.opcode i.operands ∧ i.order = order := by
  -- What the words spell is what they mean.
  constructor
  · intro built
    cases words with
    | nil => cases built
    | cons mnemonic words =>
      obtain ⟨opcode, operands, found, spelled, rfl⟩ := instruction_eq_ok_iff.mp built
      exact ⟨.intro (Opcode.ofMnemonic?_eq_some_iff.mp found) (spellsAll_iff.mp spelled), rfl⟩
  · rintro ⟨⟨named, meant⟩, rfl⟩
    exact instruction_eq_ok_iff.mpr ⟨i.opcode, i.operands,
      Opcode.ofMnemonic?_eq_some_iff.mpr named, spellsAll_iff.mpr meant, rfl⟩

/-- A line with words makes no instruction exactly if it has a problem, and that is reported. -/
theorem instruction_error_iff {order : UInt64} {mnemonic : String} {words : List String}
    {problem : Problem} :
    instruction order (mnemonic :: words) = .error problem ↔
      Faulty (mnemonic :: words) problem := by
  -- The checks come one after another, and each problem is the outcome of one of them.
  constructor
  · intro failed
    rw [instruction] at failed
    split at failed
    · rename_i unknown
      cases failed
      refine .operation fun opcode named => ?_
      rw [Opcode.ofMnemonic?_eq_some_iff.mpr named] at unknown
      cases unknown
    · rename_i opcode found
      have named := Opcode.ofMnemonic?_eq_some_iff.mp found
      split at failed
      · rename_i same
        rcases bind_eq_error_iff.mp failed with failed | ⟨arguments, made, failed⟩
        · obtain ⟨slot, word, first, rfl⟩ := shapedArguments_eq_error_iff.mp failed
          exact .shape named same first
        · -- All shapes are right, so that a value is what is wrong.
          obtain ⟨e, undecoded, rfl⟩ := mapError_eq_error_iff.mp failed
          have decoding := (Instruction.ofArguments_placed_error_iff (.refl _)
            (shapedArguments_positions made)).mp undecoded
          obtain ⟨slot, word, first, refused⟩ := (decoding_eq_error_iff made).mp decoding
          exact .invalid named (shapedArguments_shaped same made) first refused
      · rename_i differ
        cases failed
        exact .count named differ
  · intro fault
    rw [instruction]
    cases fault with
    | operation nameless =>
      have unknown : Opcode.ofMnemonic? mnemonic = none := by
        refine Option.eq_none_iff_forall_ne_some.mpr fun opcode found => ?_
        exact nameless opcode (Opcode.ofMnemonic?_eq_some_iff.mp found)
      rw [unknown]
    | count named differ =>
      rw [Opcode.ofMnemonic?_eq_some_iff.mpr named]
      exact if_neg differ
    | shape named same first =>
      rw [Opcode.ofMnemonic?_eq_some_iff.mpr named]
      dsimp only
      rw [if_pos same]
      exact bind_eq_error_iff.mpr
        (.inl (shapedArguments_eq_error_iff.mpr ⟨_, _, first, rfl⟩))
    | invalid named shaped first refused =>
      obtain ⟨arguments, made⟩ := shapedArguments_of_shaped shaped 1
      have decoding := (decoding_eq_error_iff made).mpr ⟨_, _, first, refused⟩
      rw [Opcode.ofMnemonic?_eq_some_iff.mpr named]
      dsimp only
      rw [if_pos shaped.length_eq]
      refine bind_eq_error_iff.mpr (.inr ⟨arguments, made, mapError_eq_error_iff.mpr ?_⟩)
      exact ⟨_, (Instruction.ofArguments_placed_error_iff (.refl _)
        (shapedArguments_positions made)).mpr decoding, rfl⟩

end ThreeAddress.Source
