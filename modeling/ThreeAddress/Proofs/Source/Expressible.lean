import ThreeAddress.Proofs.Language.Signature
import ThreeAddress.Proofs.Source.Spelling
import ThreeAddress.Proofs.Source.Words
import ThreeAddress.Proofs.Text.Escape
import ThreeAddress.Proofs.Text.Numeral

/-!
Which instructions source text can express: their operands fit the signature, and their labels and
variables have names of source text. These are spelled by their canonical form, and no other
instruction is spelled by any line.
-/

namespace ThreeAddress

/-- Labels and variables need a name that source text admits, and other operands have none. -/
def Operand.isNamed : Operand → Bool
  | .var x => Source.isName x.name.toList
  | .label name => Source.isName name.toList
  | _ => true

/-- Source text can express an instruction that is well-formed and has admissible names. -/
def Instruction.Expressible (i : Instruction) : Prop :=
  i.misfit? = none ∧ ∀ o ∈ i.operands, o.isNamed = true

/-- A text splits at its first at sign. -/
theorem splitMark_append {before : List Char} (free : '@' ∉ before) (after : List Char) :
    splitMark (before ++ '@' :: after) = some (before, after) := by
  -- The characters before the mark are passed over one by one.
  induction before with
  | nil => rw [List.nil_append, splitMark, if_pos rfl]
  | cons c rest ih =>
    -- The first character is no mark, so it belongs in front of it.
    simp only [List.mem_cons, not_or] at free
    rw [List.cons_append, splitMark, if_neg (Ne.symm free.1), ih free.2]
    rfl

/-- Every frame is found by its tag. -/
theorem FrameTag.ofName?_name (tag : FrameTag) : ofName? tag.name = some tag := by
  -- The names of the tags differ from each other.
  cases tag <;> decide

/-- Every type is found by its name. -/
theorem DataType.ofName?_name (t : DataType) : ofName? t.name = some t := by
  -- The names of the types differ from each other.
  cases t <;> decide

/-- Every argument type is found by its name. -/
theorem ArgumentType.ofName?_name (t : ArgumentType) : ofName? t.name = some t := by
  -- The names of the argument types differ from each other.
  cases t <;> decide

/-- Every operation is found by its mnemonic. -/
theorem Opcode.ofMnemonic?_mnemonic (opcode : Opcode) :
    ofMnemonic? opcode.mnemonic = some opcode := by
  -- The mnemonics differ from each other, even in one case of letters.
  cases opcode <;> decide

/-- A variable splits into its tag and its name. -/
theorem Variable.splitMark_text (x : Variable) :
    splitMark x.text.toList = some (x.frame.name.toList, x.name.toList) := by
  -- No tag contains an at sign, though the name behind it may.
  have free : '@' ∉ x.frame.name.toList := by
    cases x.frame <;> decide
  rw [← splitMark_append free x.name.toList]
  simp [Variable.text]

/-- A variable is denoted by its text, unless its name is empty. -/
theorem Variable.ofText_text {x : Variable} (nonempty : x.name ≠ "") :
    Variable.ofText x.text = .ok x := by
  -- The mark is found behind the tag, and the tag is known.
  have some : x.name.toList.isEmpty = false := by
    simpa [List.isEmpty_eq_false_iff] using nonempty
  simp [Variable.ofText, Variable.splitMark_text, FrameTag.ofName?_name, some]

namespace Source

/-- A name has at least one character. -/
theorem ne_nil_of_isName {name : List Char} (named : isName name = true) : name ≠ [] := by
  -- An empty text has no first character.
  rintro rfl
  cases named

/-- A variable with an admissible name has the shape of a variable. -/
theorem isVariable_text {x : Variable} (named : isName x.name.toList = true) :
    isVariable x.text = true := by
  -- The tag before the at sign is known, and the name after it is admissible.
  simp [isVariable, Variable.splitMark_text, FrameTag.ofName?_name, named]

/-- A variable with an admissible name is denoted by its text. -/
theorem ofText_var {x : Variable} (named : isName x.name.toList = true) :
    Operand.ofText .var x.text = .ok (.var x) := by
  -- Only an empty name would be refused, and an admissible one has a first character.
  have nonempty : x.name ≠ "" := by
    intro empty
    rw [empty] at named
    cases named
  rw [Operand.ofText, Variable.ofText_text nonempty]
  rfl

/-- A literal is spelled by its type, a mark and a text that denotes it. -/
theorem spells_literal {t : ArgumentType} {content : String} {o : Operand}
    (literal : t.isLiteral = true) (denotes : Operand.ofText t content = .ok o) :
    Spells .symbol (t.name ++ "@" ++ content) o := by
  have free : '@' ∉ t.name.toList := by
    cases t <;> decide
  -- No literal type is spelled like a frame tag.
  have noFrame : FrameTag.ofName? t.name = none := by
    cases t <;> decide
  refine ⟨t, content, ?_, denotes⟩
  simp [shaped?, isVariable, literal?, splitMark_append free, noFrame, ArgumentType.ofName?_name,
    literal]

/-- Every value is spelled as a literal by its canonical form. -/
theorem spells_literalText (value : Value) :
    Spells .symbol (Operand.literalText value) (.literal value) := by
  -- Each type has a text of its own: decimals, truth values, escaped text and one word.
  cases value with
  | int n =>
    refine spells_literal (t := .int) rfl ?_
    simp [Operand.ofText, Value.render, Text.readIntLiteral_repr]
  | bool b =>
    refine spells_literal (t := .bool) rfl ?_
    cases b <;> rfl
  | string s =>
    refine spells_literal (t := .string) rfl ?_
    simp [Operand.ofText, decodeString, Text.unescape_escape, Except.map]
  | nil => exact spells_literal (t := .nil) rfl rfl

/-- An operand that fits a slot and has an admissible name is spelled by its canonical form. -/
theorem spells_text {slot : Slot} {o : Operand} (fits : slot.accepts o = true)
    (named : o.isNamed = true) : Spells slot o.text o := by
  -- The kind of an operand decides which slots accept it, and the slot how it is spelled.
  cases o with
  | literal value =>
    cases slot with
    | symbol => exact spells_literalText value
    | var => cases fits
    | label => cases fits
    | type => cases fits
  | var x =>
    have shaped := isVariable_text named
    cases slot with
    | var => exact ⟨.var, x.text, by simp [shaped?, Operand.text, shaped], ofText_var named⟩
    | symbol => exact ⟨.var, x.text, by simp [shaped?, Operand.text, shaped], ofText_var named⟩
    | label => cases fits
    | type => cases fits
  | label name =>
    cases slot with
    | label =>
      -- An empty label would be refused, but it is no admissible name either.
      have nonempty : name ≠ "" := by
        rintro rfl
        exact absurd named (by decide)
      refine ⟨.label, name, ?_, by simp [Operand.ofText, nonempty]⟩
      simp only [Operand.isNamed] at named
      simp [shaped?, Operand.text, named]
    | var => cases fits
    | symbol => cases fits
    | type => cases fits
  | type t =>
    cases slot with
    | type =>
      exact ⟨.type, t.name, by simp [shaped?, Operand.text, DataType.ofName?_name],
        by simp [Operand.ofText, DataType.ofName?_name]⟩
    | var => cases fits
    | symbol => cases fits
    | label => cases fits

/-- Operands that fit their slots and have admissible names are spelled by their canonical forms. -/
theorem spellsAll_text {slots : List Slot} {operands : List Operand}
    (fits : List.Forall₂ (fun slot o => slot.accepts o = true) slots operands)
    (named : ∀ o ∈ operands, o.isNamed = true) :
    SpellsAll slots (operands.map Operand.text) operands := by
  -- Slots and operands correspond one by one, and so do their words.
  induction fits with
  | nil => exact .nil
  | cons first rest ih =>
    exact .cons (spells_text first (named _ List.mem_cons_self))
      (ih fun o member => named o (List.mem_cons_of_mem _ member))

private theorem named_of_isVariable {word : String} {o : Operand} (shaped : isVariable word = true)
    (denotes : Operand.ofText .var word = .ok o) :
    ∃ x, o = .var x ∧ isName x.name.toList = true := by
  -- A word in the shape of a variable denotes a variable with an admissible name.
  unfold isVariable at shaped
  split at shaped
  · cases shaped
  · rename_i tag name found
    simp only [Bool.and_eq_true] at shaped
    obtain ⟨frame, known⟩ := Option.isSome_iff_exists.mp shaped.1
    have nonempty : name.isEmpty = false := by
      simpa [List.isEmpty_eq_false_iff] using ne_nil_of_isName shaped.2
    simp only [Operand.ofText, Variable.ofText, found, known, nonempty, Except.map] at denotes
    cases denotes
    exact ⟨_, rfl, by simpa using shaped.2⟩

private theorem literal_of_ofText {t : ArgumentType} {text : String} {o : Operand}
    (literal : t.isLiteral = true) (denotes : Operand.ofText t text = .ok o) :
    ∃ value, o = .literal value := by
  -- A text under the type of a literal denotes a literal.
  cases t with
  | int =>
    simp only [Operand.ofText] at denotes
    split at denotes
    · cases denotes
    · cases denotes
      exact ⟨_, rfl⟩
  | bool =>
    simp only [Operand.ofText] at denotes
    split at denotes
    · cases denotes
      exact ⟨_, rfl⟩
    · split at denotes
      · cases denotes
        exact ⟨_, rfl⟩
      · cases denotes
  | string =>
    simp only [Operand.ofText] at denotes
    cases decoded : decodeString text with
    | error e => simp [decoded, Except.map] at denotes
    | ok content =>
      simp only [decoded, Except.map, Except.ok.injEq] at denotes
      exact ⟨_, denotes.symm⟩
  | nil =>
    simp only [Operand.ofText] at denotes
    split at denotes
    · cases denotes
      exact ⟨_, rfl⟩
    · cases denotes
  | label => cases literal
  | type => cases literal
  | var => cases literal

/-- Whatever a word spells in a slot is accepted there and has an admissible name. -/
theorem Spells.fits {slot : Slot} {word : String} {o : Operand} (h : Spells slot word o) :
    slot.accepts o = true ∧ o.isNamed = true := by
  -- Each slot admits few shapes, and each shape denotes operands of one kind.
  obtain ⟨declared, text, shaped, denotes⟩ := h
  cases slot with
  | var =>
    simp only [shaped?] at shaped
    split at shaped
    · rename_i addressed
      cases shaped
      obtain ⟨x, rfl, named⟩ := named_of_isVariable addressed denotes
      exact ⟨rfl, named⟩
    · cases shaped
  | symbol =>
    -- A symbol is taken for a variable first, and for a literal otherwise.
    simp only [shaped?] at shaped
    split at shaped
    · rename_i addressed
      cases shaped
      obtain ⟨x, rfl, named⟩ := named_of_isVariable addressed denotes
      exact ⟨rfl, named⟩
    · unfold literal? at shaped
      split at shaped
      · cases shaped
      · split at shaped
        · cases shaped
        · split at shaped
          · rename_i literal
            cases shaped
            obtain ⟨value, rfl⟩ := literal_of_ofText literal denotes
            exact ⟨rfl, rfl⟩
          · cases shaped
  | label =>
    simp only [shaped?] at shaped
    split at shaped
    · rename_i named
      cases shaped
      simp only [Operand.ofText] at denotes
      split at denotes
      · cases denotes
      · cases denotes
        exact ⟨rfl, named⟩
    · cases shaped
  | type =>
    simp only [shaped?] at shaped
    split at shaped
    · cases shaped
      simp only [Operand.ofText] at denotes
      split at denotes
      · cases denotes
      · cases denotes
        exact ⟨rfl, rfl⟩
    · cases shaped

/-- An operand whose canonical form spells anything in a slot that accepts it has such a name. -/
theorem isNamed_of_spells {slot : Slot} {o other : Operand} (fits : slot.accepts o = true)
    (spelled : Spells slot o.text other) : o.isNamed = true := by
  -- The shape of a label or of a variable is checked with its name.
  obtain ⟨declared, text, shaped, _⟩ := spelled
  have ofVariable {x : Variable} (shaped : isVariable x.text = true) :
      isName x.name.toList = true := by
    simpa [isVariable, Variable.splitMark_text, FrameTag.ofName?_name] using shaped
  cases o with
  | literal value => rfl
  | type t => rfl
  | label name =>
    cases slot with
    | label =>
      simp only [shaped?] at shaped
      split at shaped
      · rename_i named
        exact named
      · cases shaped
    | var => cases fits
    | symbol => cases fits
    | type => cases fits
  | var x =>
    cases slot with
    | var =>
      simp only [shaped?] at shaped
      split at shaped
      · rename_i shape
        exact ofVariable shape
      · cases shaped
    | symbol =>
      simp only [shaped?] at shaped
      split at shaped
      · rename_i shape
        exact ofVariable shape
      · -- The tag of a frame is the name of no type.
        have noLiteral : ArgumentType.ofName? x.frame.name = none := by
          cases x.frame <;> decide
        simp [literal?, Operand.text, Variable.splitMark_text, noLiteral] at shaped
    | label => cases fits
    | type => cases fits

/-- Whatever words spell fits the slots and has admissible names. -/
theorem SpellsAll.fits {slots : List Slot} {words : List String} {operands : List Operand}
    (h : SpellsAll slots words operands) :
    List.Forall₂ (fun slot o => slot.accepts o = true) slots operands ∧
      ∀ o ∈ operands, o.isNamed = true := by
  -- Each word is spelled in the slot that it stands in.
  induction h with
  | nil => exact ⟨.nil, by simp⟩
  | cons first rest ih =>
    refine ⟨.cons first.fits.1 ih.1, ?_⟩
    intro o member
    rcases List.mem_cons.mp member with rfl | member
    · exact first.fits.2
    · exact ih.2 o member

end Source

end ThreeAddress
