import ThreeAddress.Proofs.Source.Expressible
import ThreeAddress.Proofs.Text.Notation

/-!
The grammar of words. A word has a shape in its slot, and by its shape it is a variable, a name or
a literal; only literals can have the shape and still stand for nothing.
-/

namespace ThreeAddress

/-- The declared type of the arguments that are literals of a type. -/
def DataType.declared : DataType → ArgumentType
  | int => .int
  | bool => .bool
  | string => .string
  | nil => .nil

namespace Source

/-- A word names an operation by its mnemonic, where the case of ASCII letters does not matter. -/
def Names (word : String) (opcode : Opcode) : Prop :=
  word.toList.map Char.toUpper = opcode.mnemonic.toList

/-- The texts of literals under their types, with the values that they stand for. -/
inductive LiteralText : DataType → String → Value → Prop where
  | int {text : String} {n : Int64} (numeral : Text.Signed text.toList n.toInt) :
      LiteralText .int text (.int n)
  | true : LiteralText .bool "true" (.bool true)
  | false : LiteralText .bool "false" (.bool false)
  | string {text content : String} (escaped : Text.Escaped text.toList content.toList) :
      LiteralText .string text (.string content)
  | nil : LiteralText .nil "nil" .nil

/-- The words that have the shape of a slot, with the declared type and the text that they show. -/
inductive Shows : Slot → String → ArgumentType → String → Prop where
  | var {x : Variable} (named : isName x.name.toList = true) : Shows .var x.text .var x.text
  | label {name : String} (named : isName name.toList = true) : Shows .label name .label name
  | type (t : DataType) : Shows .type t.name .type t.name
  | symbol {x : Variable} (named : isName x.name.toList = true) : Shows .symbol x.text .var x.text
  /-- What the text is does not matter for the shape of a literal. -/
  | literal (t : DataType) (text : String) : Shows .symbol (t.name ++ "@" ++ text) t.declared text

/-- A word has the shape of a slot. -/
def Shaped (slot : Slot) (word : String) : Prop :=
  ∃ declared text, Shows slot word declared text

/-- The words that stand for an operand in a slot. -/
inductive Means : Slot → String → Operand → Prop where
  | var {x : Variable} (named : isName x.name.toList = true) : Means .var x.text (.var x)
  | label {name : String} (named : isName name.toList = true) : Means .label name (.label name)
  | type (t : DataType) : Means .type t.name (.type t)
  | symbol {x : Variable} (named : isName x.name.toList = true) : Means .symbol x.text (.var x)
  | literal {t : DataType} {text : String} {value : Value} (denotes : LiteralText t text value) :
      Means .symbol (t.name ++ "@" ++ text) (.literal value)

/-- The complaint about a text that stands for no value of a type. -/
def refusal (text : String) : DataType → ArgumentError
  | .int => .invalidInt text
  | .bool => .invalidBool text
  | .string => .invalidString text
  | .nil => .invalidNil text

/-- The words that have the shape of a slot and stand for nothing, with the complaint. -/
inductive Refused : Slot → String → ArgumentError → Prop where
  | literal {t : DataType} {text : String} (meaningless : ∀ value, ¬ LiteralText t text value) :
      Refused .symbol (t.name ++ "@" ++ text) (refusal text t)

/-- A word has the shape of a slot and stands for nothing. -/
def Valueless (slot : Slot) (word : String) : Prop :=
  ∃ e, Refused slot word e

end Source

/-- A text splits at an at sign exactly where none stands before it. -/
theorem splitMark_eq_some_iff {text before after : List Char} :
    splitMark text = some (before, after) ↔ '@' ∉ before ∧ text = before ++ '@' :: after := by
  -- Characters before the first mark are passed over, and none of them is a mark.
  constructor
  · intro found
    induction text generalizing before with
    | nil => cases found
    | cons c rest ih =>
      rw [splitMark] at found
      split at found
      · rename_i mark
        cases found
        simp [mark]
      · rename_i other
        obtain ⟨⟨front, back⟩, later, same⟩ := Option.map_eq_some_iff.mp found
        cases same
        obtain ⟨free, rfl⟩ := ih later
        exact ⟨by simp [free, Ne.symm other], rfl⟩
  · rintro ⟨free, rfl⟩
    exact splitMark_append free after

/-- A text does not split exactly where it has no at sign. -/
theorem splitMark_eq_none_iff {text : List Char} : splitMark text = none ↔ '@' ∉ text := by
  -- Any at sign would leave a first one, at which the text splits.
  constructor
  · intro whole mark
    obtain ⟨before, after, rfl, free⟩ := List.eq_append_cons_of_mem mark
    rw [splitMark_append free] at whole
    cases whole
  · intro free
    refine Option.eq_none_iff_forall_ne_some.mpr ?_
    rintro ⟨before, after⟩ found
    obtain ⟨_, rfl⟩ := splitMark_eq_some_iff.mp found
    simp at free

private theorem find?_eq_some_iff {α κ : Type} [DecidableEq κ] {all : List α} {name : α → κ}
    {key : κ} {a : α} (known : all.find? (fun b => name b = name a) = some a) :
    all.find? (fun b => name b = key) = some a ↔ key = name a := by
  -- What is found has the name that was looked for, and each is found by its own name.
  constructor
  · intro found
    have same := List.find?_some found
    exact (of_decide_eq_true same).symm
  · rintro rfl
    exact known

/-- A frame is found by its tag alone. -/
theorem FrameTag.ofName?_eq_some_iff {text : String} {tag : FrameTag} :
    ofName? text = some tag ↔ text = tag.name :=
  find?_eq_some_iff (ofName?_name tag)

/-- A type is found by its name alone. -/
theorem DataType.ofName?_eq_some_iff {text : String} {t : DataType} :
    ofName? text = some t ↔ text = t.name :=
  find?_eq_some_iff (ofName?_name t)

/-- An argument type is found by its name alone. -/
theorem ArgumentType.ofName?_eq_some_iff {text : String} {t : ArgumentType} :
    ofName? text = some t ↔ text = t.name :=
  find?_eq_some_iff (ofName?_name t)

/-- An operation is found by the words that name it. -/
theorem Opcode.ofMnemonic?_eq_some_iff {word : String} {opcode : Opcode} :
    ofMnemonic? word = some opcode ↔ Source.Names word opcode := by
  -- Words are looked up in upper case, which mnemonics are in.
  have upper : opcode.mnemonic.toList.map Char.toUpper = opcode.mnemonic.toList := by
    cases opcode <;> decide
  have known := ofMnemonic?_mnemonic opcode
  unfold ofMnemonic? at known ⊢
  rw [upper] at known
  exact find?_eq_some_iff known

namespace Source

/-- The shape of a variable is a tag, an at sign and a name. -/
theorem isVariable_iff {word : String} :
    isVariable word = true ↔ ∃ x : Variable, isName x.name.toList = true ∧ word = x.text := by
  -- The parts around the mark are the tag and the name, and put together they are the word.
  constructor
  · intro shaped
    unfold isVariable at shaped
    split at shaped
    · cases shaped
    · rename_i tag name found
      obtain ⟨known, named⟩ := Bool.and_eq_true_iff.mp shaped
      obtain ⟨frame, known⟩ := Option.isSome_iff_exists.mp known
      have spelled := FrameTag.ofName?_eq_some_iff.mp known
      obtain ⟨_, whole⟩ := splitMark_eq_some_iff.mp found
      refine ⟨⟨frame, String.ofList name⟩, by simpa using named, ?_⟩
      rw [← String.toList_inj, whole, Variable.text, ← spelled]
      simp
  · rintro ⟨x, named, rfl⟩
    exact isVariable_text named

/-- A literal is the name of a type, an at sign and a text. -/
theorem literal?_eq_some_iff {word text : String} {declared : ArgumentType} :
    literal? word = some (declared, text) ↔
      ∃ t : DataType, declared = t.declared ∧ word = t.name ++ "@" ++ text := by
  -- Four of the argument types are literals, and these are the types of values.
  constructor
  · intro shaped
    unfold literal? at shaped
    split at shaped
    · cases shaped
    · rename_i front back found
      obtain ⟨_, whole⟩ := splitMark_eq_some_iff.mp found
      split at shaped
      · cases shaped
      · rename_i known spelled
        have spelled := ArgumentType.ofName?_eq_some_iff.mp spelled
        have joined : word = known.name ++ "@" ++ String.ofList back := by
          rw [← String.toList_inj, whole, ← spelled]
          simp
        split at shaped
        · rename_i literal
          cases shaped
          cases declared with
          | int => exact ⟨.int, rfl, joined⟩
          | bool => exact ⟨.bool, rfl, joined⟩
          | string => exact ⟨.string, rfl, joined⟩
          | nil => exact ⟨.nil, rfl, joined⟩
          | label | type | var => cases literal
        · cases shaped
  · rintro ⟨t, rfl, rfl⟩
    have free : '@' ∉ t.name.toList := by
      cases t <;> decide
    have known : ArgumentType.ofName? t.name = some t.declared := by
      cases t <;> decide
    have literal : t.declared.isLiteral = true := by
      cases t <;> rfl
    simp [literal?, splitMark_append free, known, literal]

/-- What begins with the name of a type is no variable. -/
theorem isVariable_literal (t : DataType) (text : String) :
    isVariable (t.name ++ "@" ++ text) = false := by
  -- No type has the name of a frame, whatever the text is.
  have free : '@' ∉ t.name.toList := by
    cases t <;> decide
  have noFrame : FrameTag.ofName? t.name = none := by
    cases t <;> decide
  simp [isVariable, splitMark_append free, noFrame]

private theorem ofText_of_literalText {t : DataType} {text : String} {value : Value}
    (stands : LiteralText t text value) :
    Operand.ofText t.declared text = .ok (.literal value) := by
  -- Each type has a decoder of its own.
  cases stands with
  | int numeral =>
    simp [DataType.declared, Operand.ofText, Text.readIntLiteral_eq_some_iff.mpr numeral]
  | true | false | nil => rfl
  | string escaped =>
    simp [DataType.declared, Operand.ofText, decodeString, Text.unescape_eq_some_iff.mpr escaped,
      Except.map]

private theorem literalText_or_refused (t : DataType) (text : String) :
    (∃ value, LiteralText t text value) ∨
      Operand.ofText t.declared text = .error (refusal text t) := by
  -- Whatever a decoder finds is what the text stands for.
  cases t with
  | int =>
    cases read : Text.readIntLiteral text.toList with
    | none => exact .inr (by simp [DataType.declared, Operand.ofText, read, refusal])
    | some n => exact .inl ⟨.int n, .int (Text.readIntLiteral_eq_some_iff.mp read)⟩
  | bool =>
    by_cases yes : text = "true"
    · exact .inl ⟨.bool true, yes ▸ .true⟩
    · by_cases no : text = "false"
      · exact .inl ⟨.bool false, no ▸ .false⟩
      · exact .inr (by simp [DataType.declared, Operand.ofText, yes, no, refusal])
  | string =>
    cases read : Text.unescape text.toList with
    | none =>
      refine .inr ?_
      simp [DataType.declared, Operand.ofText, decodeString, read, refusal, Except.map]
    | some content =>
      refine .inl ⟨.string (String.ofList content), .string ?_⟩
      rw [String.toList_ofList]
      exact Text.unescape_eq_some_iff.mp read
  | nil =>
    by_cases same : text = "nil"
    · exact .inl ⟨.nil, same ▸ .nil⟩
    · exact .inr (by simp [DataType.declared, Operand.ofText, same, refusal])

/-- A text under the type of a literal is decoded to the value that it stands for. -/
theorem ofText_eq_ok_iff {t : DataType} {text : String} {o : Operand} :
    Operand.ofText t.declared text = .ok o ↔
      ∃ value, LiteralText t text value ∧ o = .literal value := by
  -- A text that stands for no value would have been refused.
  constructor
  · intro decoded
    rcases literalText_or_refused t text with ⟨value, stands⟩ | refused
    · rw [ofText_of_literalText stands] at decoded
      cases decoded
      exact ⟨value, stands, rfl⟩
    · rw [refused] at decoded
      cases decoded
  · rintro ⟨value, stands, rfl⟩
    exact ofText_of_literalText stands

/-- A text under the type of a literal is refused exactly where it stands for no value. -/
theorem ofText_eq_error_iff {t : DataType} {text : String} {e : ArgumentError} :
    Operand.ofText t.declared text = .error e ↔
      (∀ value, ¬ LiteralText t text value) ∧ e = refusal text t := by
  -- A text that stands for a value would have been decoded.
  constructor
  · intro failed
    have meaningless : ∀ value, ¬ LiteralText t text value := by
      intro value stands
      rw [ofText_of_literalText stands] at failed
      cases failed
    rcases literalText_or_refused t text with ⟨value, stands⟩ | refused
    · exact absurd stands (meaningless value)
    · rw [refused] at failed
      cases failed
      exact ⟨meaningless, rfl⟩
  · rintro ⟨meaningless, rfl⟩
    rcases literalText_or_refused t text with ⟨value, stands⟩ | refused
    · exact absurd stands (meaningless value)
    · exact refused

/-- A word is read by its shape, which it has in a slot. -/
theorem shaped?_eq_some_iff {slot : Slot} {word text : String} {declared : ArgumentType} :
    shaped? slot word = some (declared, text) ↔ Shows slot word declared text := by
  -- Each slot tries its shapes in turn, and a symbol is taken for a variable first.
  constructor
  · intro read
    cases slot with
    | var =>
      simp only [shaped?] at read
      split at read
      · rename_i shape
        obtain ⟨x, named, rfl⟩ := isVariable_iff.mp shape
        cases read
        exact .var named
      · cases read
    | label =>
      simp only [shaped?] at read
      split at read
      · rename_i named
        cases read
        exact .label named
      · cases read
    | type =>
      simp only [shaped?] at read
      split at read
      · rename_i known
        obtain ⟨t, known⟩ := Option.isSome_iff_exists.mp known
        cases read
        rw [DataType.ofName?_eq_some_iff.mp known]
        exact .type t
      · cases read
    | symbol =>
      simp only [shaped?] at read
      split at read
      · rename_i shape
        obtain ⟨x, named, rfl⟩ := isVariable_iff.mp shape
        cases read
        exact .symbol named
      · obtain ⟨t, rfl, rfl⟩ := literal?_eq_some_iff.mp read
        exact .literal t text
  · intro shows
    cases shows with
    | var named => simp [shaped?, isVariable_text named]
    | label named => simp [shaped?, named]
    | type t => simp [shaped?, DataType.ofName?_name]
    | symbol named => simp [shaped?, isVariable_text named]
    | literal t text =>
      simp only [shaped?, isVariable_literal]
      exact literal?_eq_some_iff.mpr ⟨t, rfl, rfl⟩

/-- A word that has no shape in a slot is not read there. -/
theorem shaped?_eq_none_iff {slot : Slot} {word : String} :
    shaped? slot word = none ↔ ¬ Shaped slot word := by
  -- Reading finds a shape wherever there is one.
  constructor
  · rintro unread ⟨declared, text, shows⟩
    rw [shaped?_eq_some_iff.mpr shows] at unread
    cases unread
  · intro shapeless
    cases read : shaped? slot word with
    | none => rfl
    | some shown => exact absurd ⟨shown.1, shown.2, shaped?_eq_some_iff.mp read⟩ shapeless

private theorem ofText_label {name : String} (named : isName name.toList = true) :
    Operand.ofText .label name = .ok (.label name) := by
  -- An empty label would be refused, but it is no name.
  have nonempty : name ≠ "" := by
    rintro rfl
    exact absurd named (by decide)
  simp [Operand.ofText, nonempty]

private theorem ofText_type (t : DataType) : Operand.ofText .type t.name = .ok (.type t) := by
  -- Every type is found by its name.
  simp [Operand.ofText, DataType.ofName?_name]

/-- A word spells in a slot exactly what it means there. -/
theorem spells_iff {slot : Slot} {word : String} {o : Operand} :
    Spells slot word o ↔ Means slot word o := by
  -- Each shape is decoded in one way, and only the text of a literal decides anything.
  constructor
  · rintro ⟨declared, text, read, decoded⟩
    cases shaped?_eq_some_iff.mp read with
    | var named =>
      cases (ofText_var named).symm.trans decoded
      exact .var named
    | label named =>
      cases (ofText_label named).symm.trans decoded
      exact .label named
    | type t =>
      cases (ofText_type t).symm.trans decoded
      exact .type t
    | symbol named =>
      cases (ofText_var named).symm.trans decoded
      exact .symbol named
    | literal t text =>
      obtain ⟨value, stands, rfl⟩ := ofText_eq_ok_iff.mp decoded
      exact .literal stands
  · intro means
    cases means with
    | var named => exact ⟨_, _, shaped?_eq_some_iff.mpr (.var named), ofText_var named⟩
    | label named => exact ⟨_, _, shaped?_eq_some_iff.mpr (.label named), ofText_label named⟩
    | type t => exact ⟨_, _, shaped?_eq_some_iff.mpr (.type t), ofText_type t⟩
    | symbol named => exact ⟨_, _, shaped?_eq_some_iff.mpr (.symbol named), ofText_var named⟩
    | literal stands =>
      exact ⟨_, _, shaped?_eq_some_iff.mpr (.literal _ _), ofText_eq_ok_iff.mpr ⟨_, stands, rfl⟩⟩

/-- A word that is read is refused exactly where it is a literal that stands for no value. -/
theorem refused_iff {slot : Slot} {word text : String} {declared : ArgumentType}
    (read : shaped? slot word = some (declared, text)) {e : ArgumentError} :
    Operand.ofText declared text = .error e ↔ Refused slot word e := by
  -- Variables, labels and types have been checked with their shape.
  constructor
  · intro failed
    cases shaped?_eq_some_iff.mp read with
    | var named => cases (ofText_var named).symm.trans failed
    | label named => cases (ofText_label named).symm.trans failed
    | type t => cases (ofText_type t).symm.trans failed
    | symbol named => cases (ofText_var named).symm.trans failed
    | literal t text =>
      obtain ⟨meaningless, rfl⟩ := ofText_eq_error_iff.mp failed
      exact .literal meaningless
  · intro refused
    cases refused with
    | @literal t text meaningless =>
      -- The word is read as the literal that it is.
      cases (shaped?_eq_some_iff.mpr (.literal t text)).symm.trans read
      exact ofText_eq_error_iff.mpr ⟨meaningless, rfl⟩

end Source

end ThreeAddress
