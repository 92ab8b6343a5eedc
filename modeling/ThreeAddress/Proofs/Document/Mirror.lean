import ThreeAddress.Proofs.Document.Acceptance
import ThreeAddress.Proofs.Source.Acceptance

/-!
Documents that say what a source text says, line by line and word by word. Whatever source text is
accepted, such a document is accepted too, and in any arrangement of its elements.
-/

namespace ThreeAddress.Document

open Markup (Element)
open Source (Line)

/-- Elements mirror words in slots: each is the argument at the next position, with the type and the
text that its word shows. -/
inductive MirrorsWords : Nat → List Slot → List String → List Element → Prop where
  | nil {position : Nat} : MirrorsWords position [] [] []
  | cons {position : Nat} {slot : Slot} {word text : String} {declared : ArgumentType} {e : Element}
      {slots : List Slot} {words : List String} {elements : List Element}
      (shows : Source.Shows slot word declared text) (tag : ArgumentTag e.tag position)
      (type : e.attribute? "type" = some declared.name) (text : e.text = text)
      (rest : MirrorsWords (position + 1) slots words elements) :
      MirrorsWords position (slot :: slots) (word :: words) (e :: elements)

/-- An element mirrors the line of a rank: the rank is the order, the first word is the operation as
it is written, and the elements in it mirror the other words, in whatever sequence. -/
inductive MirrorsLine (rank : Nat) : List String → Element → Prop where
  | intro {mnemonic : String} {words : List String} {opcode : Opcode} {e : Element}
      {placed : List Element} (tag : e.tag = "instruction")
      (order : e.attribute? "order" = some (toString rank))
      (operation : e.attribute? "opcode" = some mnemonic) (named : Source.Names mnemonic opcode)
      (same : placed.Perm e.elements) (mirrored : MirrorsWords 1 opcode.signature words placed) :
      MirrorsLine rank (mnemonic :: words) e

/-- Elements mirror lines from a rank on. -/
inductive MirrorsLines : Nat → List Line → List Element → Prop where
  | nil {rank : Nat} : MirrorsLines rank [] []
  | cons {rank : Nat} {line : Line} {e : Element} {lines : List Line} {elements : List Element}
      (first : MirrorsLine rank line.words e) (rest : MirrorsLines (rank + 1) lines elements) :
      MirrorsLines rank (line :: lines) (e :: elements)

/-- A root mirrors lines: the elements in it do, in whatever sequence. -/
def Mirrors (lines : List Line) (root : Element) : Prop :=
  root.tag = "program" ∧ root.attribute? "language" = some language ∧
    ∃ placed : List Element, placed.Perm root.elements ∧ MirrorsLines 1 lines placed

/-- An element says of an instruction where its order places it. -/
def IsPlaced (e : Element) (i : Instruction) : Prop :=
  e.attribute? "order" = some (toString i.order.toNat)

/-- What a word means in a slot is denoted by the text that it shows there. -/
theorem denotes_of_means {slot : Slot} {word text : String} {declared : ArgumentType} {o : Operand}
    (shows : Source.Shows slot word declared text) (means : Source.Means slot word o) :
    Denotes declared text o := by
  -- A word is read in one way only.
  obtain ⟨_, _, read, decoded⟩ := Source.spells_iff.mpr means
  cases (Source.shaped?_eq_some_iff.mpr shows).symm.trans read
  exact ((ofText_endsAs _ _).ok_iff o).mp decoded

/-- Elements that mirror words are arguments, which hold what the words mean. -/
theorem MirrorsWords.holds {position : Nat} {slots : List Slot} {words : List String}
    {elements : List Element} (h : MirrorsWords position slots words elements)
    {operands : List Operand} (meant : Source.MeansAll slots words operands) :
    List.Forall₂ IsArgument (List.range' position elements.length) elements ∧
      List.Forall₂ Holds elements operands := by
  -- Words, elements and operands are as many, and the next ones are at the next position.
  induction h generalizing operands with
  | nil =>
    cases meant
    exact ⟨.nil, .nil⟩
  | cons shows tag type text rest ih =>
    cases meant with
    | cons means others =>
      obtain ⟨inPlace, holds⟩ := ih others
      rw [List.length_cons, List.range'_succ]
      refine ⟨.cons ⟨tag, _, type⟩ inPlace, .cons ⟨_, type, ?_⟩ holds⟩
      rw [text]
      exact denotes_of_means shows means

/-- The decimal form of an order is the text of that order. -/
theorem isOrder_toString {n : UInt64} (positive : 0 < n.toNat) :
    IsOrder (toString n.toNat) n := by
  -- Only zero would be written with a zero in front.
  rw [IsOrder, Nat.toString_eq_repr, Nat.toList_repr]
  exact ⟨Text.head?_toDigits positive,
    (Text.readNatural_eq_some_iff (by decide)).mp (Text.readNatural_toDigits n.toNat)⟩

/-- An element that mirrors a line describes the instruction that the line states. -/
theorem MirrorsLine.describes {rank : Nat} {words : List String} {e : Element}
    (h : MirrorsLine rank words e) {i : Instruction}
    (statement : Source.Statement words i.opcode i.operands) (order : i.order.toNat = rank)
    (positive : 0 < rank) : DescribesInstruction e i ∧ IsPlaced e i := by
  obtain ⟨tag, place, operation, named, same, mirrored⟩ := h
  obtain ⟨sameName, meant⟩ := statement
  -- The word names one operation only.
  cases (Opcode.ofMnemonic?_eq_some_iff.mpr named).symm.trans
    (Opcode.ofMnemonic?_eq_some_iff.mpr sameName)
  subst order
  obtain ⟨inPlace, holds⟩ := mirrored.holds meant
  have ordered : IsOrdered e i.order := ⟨tag, _, place, isOrder_toString positive⟩
  exact ⟨⟨⟨ordered, _, operation, named⟩, _, same, inPlace, holds⟩, place⟩

/-- Elements that mirror lines describe the instructions that the lines state. -/
theorem MirrorsLines.describes {rank : Nat} {lines : List Line} {elements : List Element}
    (h : MirrorsLines rank lines elements) {code : List Instruction}
    (statements : List.Forall₂ (fun line i => Source.Statement line.words i.opcode i.operands)
      lines code)
    (numbered : code.map (fun i => i.order.toNat) = List.range' rank code.length)
    (positive : 0 < rank) :
    List.Forall₂ (fun e i => DescribesInstruction e i ∧ IsPlaced e i) elements code := by
  -- The next line has the next rank, which is the order of the next instruction.
  induction h generalizing code with
  | nil =>
    cases statements
    exact .nil
  | cons first rest ih =>
    cases statements with
    | cons statement others =>
      rw [List.map_cons, List.length_cons, List.range'_succ, List.cons.injEq] at numbered
      exact .cons (first.describes statement numbered.1 positive)
        (ih others numbered.2 (Nat.succ_pos _))

/-- The element of an argument, which is empty where there is no text. -/
def argumentElement (position : Nat) (declared : ArgumentType) (text : String) : Element :=
  { tag := "arg" ++ toString position
    attributes := [("type", declared.name)]
    children := if text = "" then [] else [.text text] }

/-- The element of an argument holds its text. -/
theorem text_argumentElement (position : Nat) (declared : ArgumentType) (text : String) :
    (argumentElement position declared text).text = text := by
  -- An empty text is no text at all, and is read as an empty one.
  by_cases empty : text = ""
  · rw [argumentElement, if_pos empty, empty]
    rfl
  · rw [argumentElement, if_neg empty]
    rfl

/-- Words that mean operands are mirrored by elements, as no instruction has more than three. -/
theorem exists_mirrorsWords {slots : List Slot} {words : List String} {operands : List Operand}
    (meant : Source.MeansAll slots words operands) {position : Nat} (positive : 0 < position)
    (room : position + slots.length ≤ 4) :
    ∃ elements, MirrorsWords position slots words elements := by
  -- Each slot takes a position, and positions are used up no sooner than slots.
  induction meant generalizing position with
  | nil => exact ⟨[], .nil⟩
  | cons means rest ih =>
    rw [List.length_cons] at room
    obtain ⟨elements, mirrored⟩ := ih (Nat.succ_pos position) (by omega)
    obtain ⟨declared, text, read, _⟩ := Source.spells_iff.mpr means
    have tag : ArgumentTag (argumentElement position declared text).tag position := by
      have few : position = 1 ∨ position = 2 ∨ position = 3 := by omega
      rcases few with rfl | rfl | rfl
      · exact .first
      · exact .second
      · exact .third
    exact ⟨argumentElement position declared text :: elements,
      .cons (Source.shaped?_eq_some_iff.mp read) tag rfl (text_argumentElement ..) mirrored⟩

/-- A tree that is made of elements has these elements. -/
theorem elements_toNode (tag : String) (attributes : List (String × String))
    (elements : List Element) :
    Element.elements { tag, attributes, children := elements.map Element.toNode } = elements := by
  -- Each node is that of an element, so that none is left out.
  simp [Element.elements, List.filterMap_map, Function.comp_def, Element.toNode,
    Markup.Node.element?]

/-- A statement is mirrored by an element, whatever its rank. -/
theorem exists_mirrorsLine (rank : Nat) {words : List String} {opcode : Opcode}
    {operands : List Operand} (statement : Source.Statement words opcode operands) :
    ∃ e, MirrorsLine rank words e := by
  -- The element has nothing but what it takes to mirror the line.
  cases statement with
  | @intro mnemonic _ _ _ named meant =>
    have few : 1 + opcode.signature.length ≤ 4 := by
      cases opcode <;> decide
    obtain ⟨placed, mirrored⟩ := exists_mirrorsWords meant Nat.one_pos few
    refine ⟨{
      tag := "instruction"
      attributes := [("order", toString rank), ("opcode", mnemonic)]
      children := placed.map Element.toNode }, .intro rfl rfl rfl named ?_ mirrored⟩
    rw [elements_toNode]

/-- Statements are mirrored by elements, rank by rank. -/
theorem exists_mirrorsLines {lines : List Line} {code : List Instruction}
    (statements : List.Forall₂ (fun line i => Source.Statement line.words i.opcode i.operands)
      lines code) (rank : Nat) : ∃ elements, MirrorsLines rank lines elements := by
  -- Each statement has its element, and the ranks count on.
  induction statements generalizing rank with
  | nil => exact ⟨[], .nil⟩
  | cons statement rest ih =>
    obtain ⟨e, first⟩ := exists_mirrorsLine rank statement
    obtain ⟨elements, others⟩ := ih (rank + 1)
    exact ⟨e :: elements, .cons first others⟩

/--
Source text and the documents that mirror it make the same program, up to its sequence.

Whatever the text, if it is accepted then there are documents that mirror the lines behind its
header. Each of them is accepted, whatever reader finds its tree, and in whatever sequence its
instructions and their arguments come. It makes the instructions that the text makes, in the
sequence of their elements. No text in memory has as many bytes as there are orders, so that no
order is used twice.
-/
theorem mirrors_agree {text : String} (small : text.utf8ByteSize < 2 ^ 63) {p : Program}
    (accepted : Source.assemble text = .ok p) :
    (∃ root, Mirrors (Source.codeLines text.toList).tail root) ∧
    ∀ root, Mirrors (Source.codeLines text.toList).tail root →
      ∃ q, program root = .ok q ∧ q.instructions.Perm p.instructions ∧
        List.Forall₂ IsPlaced root.elements q.instructions ∧
        ∀ (read : String → Option Element) (document : String), read document = some root →
          loadWith read document = .ok q := by
  obtain ⟨lines, _, statements, numbered⟩ := (Source.assemble_ok_iff small).mp accepted
  rw [lines, List.tail_cons]
  constructor
  · obtain ⟨elements, mirrored⟩ := exists_mirrorsLines statements 1
    refine ⟨{
      tag := "program"
      attributes := [("language", language)]
      children := elements.map Element.toNode }, rfl, rfl, elements, ?_, mirrored⟩
    rw [elements_toNode]
  · rintro root ⟨tag, given, placed, same, mirrored⟩
    -- What the elements describe in sequence, they describe in any other sequence.
    have described := mirrored.describes statements numbered Nat.one_pos
    obtain ⟨code, follows, moved⟩ := List.perm_comp_forall₂ same.symm described
    have made : program root = .ok { instructions := code } :=
      ((program_endsAs root).ok_iff _).mpr ⟨tag, given, follows.imp fun _ _ => And.left⟩
    refine ⟨_, made, moved, follows.imp fun _ _ => And.right, fun read document found => ?_⟩
    exact (loadWith_of_read found).trans made

/-- A source text with a comment and with statements in an unusual notation. -/
def chatter : String :=
  ".ippcode23\nlabel again # and again\n\nWrite string@\\035\n Jump again"

/-- The instructions of the source text. -/
def chatterProgram : Program :=
  { instructions := [⟨.label, 1, [.label "again"]⟩, ⟨.write, 2, [.literal (.string "#")]⟩,
      ⟨.jump, 3, [.label "again"]⟩] }

/-- There is a document that mirrors the text, and it makes the instructions of the text. -/
theorem mirrors_agree_of_chatter :
    ∃ root q, Mirrors (Source.codeLines chatter.toList).tail root ∧ program root = .ok q ∧
      q.instructions.Perm chatterProgram.instructions := by
  -- The text is accepted, and some tree mirrors its lines.
  have accepted : Source.assemble chatter = .ok chatterProgram := by decide +kernel
  obtain ⟨⟨root, mirrored⟩, agree⟩ := mirrors_agree (by decide) accepted
  obtain ⟨q, made, same, _⟩ := agree root mirrored
  exact ⟨root, q, mirrored, made, same⟩

end ThreeAddress.Document
