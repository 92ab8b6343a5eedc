import Mathlib.Data.List.Perm.Basic
import ThreeAddress.Proofs.Document.Grammar

/-!
Which documents are accepted: those that describe a program by the grammar. Any other document has
one complaint against it, the first that loading meets.
-/

namespace ThreeAddress.Document

open Markup (Element)

/-- The argument that an element makes once it is known as one. -/
def Makes (e : Element) (a : Argument) : Prop :=
  ArgumentTag e.tag a.position ∧ e.attribute? "type" = some a.type.name ∧ a.text = e.text

/-- The position of an argument is told by its tag. -/
theorem position?_eq_some_iff {tag : String} {position : Nat} :
    position? tag = some position ↔ ArgumentTag tag position := by
  -- The three tags are tried one after another, and any other tag has no position.
  constructor
  · intro found
    unfold position? at found
    by_cases first : tag = "arg1"
    · rw [if_pos first] at found
      cases found
      exact first ▸ .first
    · by_cases second : tag = "arg2"
      · rw [if_neg first, if_pos second] at found
        cases found
        exact second ▸ .second
      · by_cases third : tag = "arg3"
        · rw [if_neg first, if_neg second, if_pos third] at found
          cases found
          exact third ▸ .third
        · simp [first, second, third] at found
  · intro tagged
    cases tagged <;> decide

private theorem ofName?_of_unknown {given : Option String}
    (unknown : ∀ declared : ArgumentType, given ≠ some declared.name) :
    ArgumentType.ofName? (given.getD "") = none := by
  refine Option.eq_none_iff_forall_ne_some.mpr fun declared found => ?_
  have spelled := ArgumentType.ofName?_eq_some_iff.mp found
  cases given with
  | none =>
    -- What stands for a missing type is empty, and no type has an empty name.
    cases declared <;> exact absurd spelled (by decide)
  | some text => exact unknown declared (congrArg some spelled)

/-- An element makes an argument, or it is none for its tag or for its type. -/
theorem argument_endsAs (order : UInt64) (e : Element) :
    EndsAs (argument order e) (Makes e) (NoArgument order e) := by
  have sound (a : Argument) (makes : Makes e a) : argument order e = .ok a := by
    obtain ⟨tag, given, text⟩ := makes
    simp [argument, position?_eq_some_iff.mpr tag, given, ArgumentType.ofName?_name, ← text]
  have refused (complaint : Error) (wrong : NoArgument order e complaint) :
      argument order e = .error complaint := by
    cases wrong with
    | tag other =>
      have nowhere : position? e.tag = none :=
        Option.eq_none_iff_forall_ne_some.mpr fun position found =>
          other position (position?_eq_some_iff.mp found)
      simp [argument, nowhere]
    | type tag unknown =>
      simp [argument, position?_eq_some_iff.mpr tag, ofName?_of_unknown unknown]
  refine .of_total sound refused ?_
  -- The type matters only where the tag is right.
  by_cases placed : ∃ position, ArgumentTag e.tag position
  · obtain ⟨position, tag⟩ := placed
    by_cases typed : ∃ declared : ArgumentType, e.attribute? "type" = some declared.name
    · obtain ⟨declared, given⟩ := typed
      exact .inl ⟨⟨declared, e.text, position⟩, tag, given, rfl⟩
    · exact .inr ⟨_, .type tag fun declared given => typed ⟨declared, given⟩⟩
  · exact .inr ⟨_, .tag fun position tag => placed ⟨position, tag⟩⟩

/-- The operand of an argument is the one that its element holds. -/
theorem Makes.endsAs {e : Element} {a : Argument} (h : Makes e a) :
    EndsAs (Operand.ofArgument a) (Holds e) (HoldsNothing e) := by
  -- The type is the only one with the declared name.
  obtain ⟨_, given, text⟩ := h
  have only {declared : ArgumentType} (same : e.attribute? "type" = some declared.name) :
      declared = a.type := by
    have spelled := Option.some.inj (given.symm.trans same)
    exact Option.some.inj
      ((ArgumentType.ofName?_name declared).symm.trans
        (ArgumentType.ofName?_eq_some_iff.mpr spelled.symm))
  rw [Operand.ofArgument, text]
  refine (ofText_endsAs a.type e.text).congr (fun o => ?_) fun complaint => ?_
  · constructor
    · exact fun denotes => ⟨a.type, given, denotes⟩
    · rintro ⟨declared, same, denotes⟩
      exact only same ▸ denotes
  · constructor
    · exact fun refused => ⟨a.type, given, refused⟩
    · rintro ⟨declared, same, refused⟩
      exact only same ▸ refused

/-- An element makes an argument exactly if it is one. -/
theorem exists_makes_iff {e : Element} : (∃ a, Makes e a) ↔ ∃ position, IsArgument position e := by
  -- The text is taken as it is, so that only the tag and the type can be wrong.
  constructor
  · rintro ⟨a, tag, given, _⟩
    exact ⟨a.position, tag, a.type, given⟩
  · rintro ⟨position, tag, declared, given⟩
    exact ⟨⟨declared, e.text, position⟩, tag, given, rfl⟩

section Placing

variable {elements : List Element} {arguments : List Argument} {positions : List Nat}

/-- Elements are the arguments at the positions of what they make. -/
theorem isArgument_of_makes (made : List.Forall₂ Makes elements arguments) :
    List.Forall₂ IsArgument (arguments.map Argument.position) elements := by
  -- What makes an argument has the tag of its position.
  induction made with
  | nil => exact .nil
  | cons first rest ih =>
    obtain ⟨tag, given, _⟩ := first
    exact .cons ⟨tag, _, given⟩ ih

/-- The positions of elements are told by what they make. -/
theorem positions_of_makes (made : List.Forall₂ Makes elements arguments)
    (placed : List.Forall₂ IsArgument positions elements) :
    arguments.map Argument.position = positions := by
  -- No tag has two positions.
  induction placed generalizing arguments with
  | nil =>
    cases made
    rfl
  | @cons position e positions elements isArgument rest ih =>
    cases made with
    | cons first others =>
      have found := position?_eq_some_iff.mpr first.1
      have same := Option.some.inj (found.symm.trans (position?_eq_some_iff.mpr isArgument.1))
      rw [List.map_cons, same, ih others]

/-- Elements that are arguments make arguments, in whatever sequence they are put. -/
theorem exists_makes {placed : List Element} (same : placed.Perm elements)
    (isArgument : List.Forall₂ IsArgument positions placed) :
    ∃ arguments, List.Forall₂ Makes elements arguments := by
  -- What an element makes does not depend on where it stands.
  refine exists_forall₂ fun e member => exists_makes_iff.mpr ?_
  exact exists_of_mem_right isArgument (same.mem_iff.mpr member)

/-- Putting the arguments into place is putting their elements into place. -/
theorem exists_placed_iff (made : List.Forall₂ Makes elements arguments)
    {ofArguments : List Argument → Prop} {ofElements : List Element → Prop}
    (same : ∀ placed others, List.Forall₂ Makes placed others →
      (ofArguments others ↔ ofElements placed)) :
    (∃ others : List Argument, others.Perm arguments ∧ InPlace others ∧ ofArguments others) ↔
      ∃ placed : List Element, placed.Perm elements ∧
        List.Forall₂ IsArgument (List.range' 1 placed.length) placed ∧ ofElements placed := by
  -- Whatever sequence is chosen on one side, the other side can follow.
  constructor
  · rintro ⟨others, moved, numbered, holds⟩
    obtain ⟨placed, makes, follow⟩ := List.perm_comp_forall₂ moved
      (List.Forall₂.flip (R := fun a e => Makes e a) made)
    have makes : List.Forall₂ Makes placed others := makes.flip
    refine ⟨placed, follow, ?_, (same placed others makes).mp holds⟩
    have inPlace := isArgument_of_makes makes
    rwa [numbered, ← makes.length_eq] at inPlace
  · rintro ⟨placed, moved, inPlace, holds⟩
    obtain ⟨others, makes, follow⟩ := List.perm_comp_forall₂ moved made
    refine ⟨others, follow, ?_, (same placed others makes).mpr holds⟩
    rw [InPlace, positions_of_makes makes inPlace, makes.length_eq]

/-- The texts of arguments are decoded to what their elements hold, one after another. -/
theorem texts_endsAs (made : List.Forall₂ Makes elements arguments) :
    EndsAs (arguments.mapM Operand.ofArgument) (List.Forall₂ Holds elements)
      (FirstWrong (fun a => ∃ o, Holds a o) HoldsNothing elements) :=
  .mapM (made.imp fun _ _ => Makes.endsAs)

end Placing

/-- An element makes an instruction of the operands that it holds, or none for what is wrong. -/
theorem operands_endsAs (e : Element) (opcode : Opcode) (n : UInt64) :
    EndsAs (do
        let arguments ← e.elements.mapM (argument n)
        (Instruction.ofArguments opcode n arguments).mapError (.invalidArguments n))
      (fun i => i.opcode = opcode ∧ i.order = n ∧ HoldsOperands e i.operands) (NoOperands n e) := by
  have arguments : EndsAs (e.elements.mapM (argument n)) _ _ :=
    .mapM (List.forall₂_same.mpr fun a _ => argument_endsAs n a)
  have placing (made : List Argument) (_ : List.Forall₂ Makes e.elements made) :
      EndsAs (Instruction.ofArguments opcode n made) _ _ :=
    ⟨fun _ => Instruction.ofArguments_ok_iff, fun _ => Instruction.ofArguments_error_iff⟩
  have whole := arguments.bind fun made makes =>
    (placing made makes).mapError (Error.invalidArguments n)
  -- The arguments that are made give way to the elements that they are made of.
  refine whole.congr (fun i => ?_) fun complaint => ?_
  · constructor
    · rintro ⟨made, makes, same, order, placed⟩
      refine ⟨same, order, (exists_placed_iff makes fun _ _ behind => ?_).mp placed⟩
      exact (texts_endsAs behind).ok_iff i.operands
    · rintro ⟨same, order, placed⟩
      obtain ⟨_, moved, inPlace, _⟩ := id placed
      obtain ⟨made, makes⟩ := exists_makes moved inPlace
      refine ⟨made, makes, same, order, (exists_placed_iff makes fun _ _ behind => ?_).mpr placed⟩
      exact (texts_endsAs behind).ok_iff i.operands
  · -- Each of the three checks has a cause of its own, and the last one looks at placed elements.
    simp only [exists_makes_iff]
    constructor
    · rintro (first | ⟨made, makes, cause, ⟨position, wrong, rfl⟩ | refused, rfl⟩)
      · exact .argument first
      · exact .position (isArgument_of_makes makes) wrong
      · obtain ⟨placed, moved, inPlace, first⟩ := (exists_placed_iff makes fun _ _ behind =>
          (texts_endsAs behind).error_iff cause).mp refused
        exact .text moved inPlace first
    · intro wrong
      cases wrong with
      | argument first => exact .inl first
      | position isArgument wrong =>
        obtain ⟨made, makes⟩ := exists_makes (.refl _) isArgument
        have misplaced := positions_of_makes makes isArgument ▸ wrong
        exact .inr ⟨made, makes, _, .inl ⟨_, misplaced, rfl⟩, rfl⟩
      | @text placed cause moved inPlace first =>
        obtain ⟨made, makes⟩ := exists_makes moved inPlace
        have refused := (exists_placed_iff makes fun _ _ behind =>
          (texts_endsAs behind).error_iff cause).mpr ⟨placed, moved, inPlace, first⟩
        exact .inr ⟨made, makes, cause, .inr refused, rfl⟩

/-- An attribute is read, or it is missing. -/
theorem required_endsAs (e : Element) (name : String) :
    EndsAs (required e name) (fun text => e.attribute? name = some text)
      (fun complaint => e.attribute? name = none ∧ complaint = .missingAttribute name) := by
  -- Reading an attribute is a lookup with one complaint.
  have found : EndsAs (required e name) (fun text => e.attribute? name = some text) _ :=
    .lookup (fun text given => by rw [required, given]) (fun missing => by rw [required, missing])
      fun _ => Iff.rfl
  exact found.congr (fun _ => Iff.rfl) fun _ => and_congr_left fun _ =>
    Option.eq_none_iff_forall_ne_some.symm

/-- A text is read as an order, or it is none. -/
theorem order_endsAs (text : String) :
    EndsAs (order text) (IsOrder text)
      (fun complaint => (∀ n, ¬ IsOrder text n) ∧ complaint = .invalidOrder text) :=
  .lookup (fun n read => by rw [order, read]) (fun unread => by rw [order, unread])
    fun _ => readOrder_eq_some_iff

/-- A text is read as the name of an operation, or it names none. -/
theorem opcode_endsAs (n : UInt64) (word : String) :
    EndsAs (opcode n word) (Source.Names word)
      (fun complaint => (∀ opcode, ¬ Source.Names word opcode) ∧
        complaint = .unknownOperation n word) :=
  .lookup (fun found named => by rw [opcode, named]) (fun unknown => by rw [opcode, unknown])
    fun _ => Opcode.ofMnemonic?_eq_some_iff

/-- The tag of an instruction is looked at before anything else. -/
theorem noInstruction_of_tag {e : Element} (other : e.tag ≠ "instruction") {complaint : Error} :
    NoInstruction e complaint ↔ complaint = .unexpectedElement e.tag := by
  -- Every other complaint is about an element with the right tag.
  constructor
  · intro wrong
    cases wrong with
    | tag => rfl
    | unordered tag => exact absurd tag other
    | order tag => exact absurd tag other
    | unnamed ordered => exact absurd ordered.1 other
    | opcode ordered => exact absurd ordered.1 other
    | operands head => exact absurd head.1.1 other
  · rintro rfl
    exact .tag other

/-- An element makes the instruction that it describes, or none for the first thing wrong in it. -/
theorem instruction_endsAs (e : Element) :
    EndsAs (instruction e) (DescribesInstruction e) (NoInstruction e) := by
  -- The parts are read in sequence, so that an early complaint hides the later ones.
  by_cases tag : e.tag = "instruction"
  · -- Order, operation and operands are read one after another.
    have whole := (required_endsAs e "order").bind fun text _ => (order_endsAs text).bind fun n _ =>
      (required_endsAs e "opcode").bind fun word _ => (opcode_endsAs n word).bind fun found _ =>
      operands_endsAs e found n
    rw [instruction, if_neg (not_not.mpr tag)]
    refine whole.congr (fun i => ?_) fun complaint => ?_
    · constructor
      · rintro ⟨text, ordered, n, numeral, word, given, opcode, named, rfl, rfl, holds⟩
        exact ⟨⟨⟨tag, text, ordered, numeral⟩, word, given, named⟩, holds⟩
      · rintro ⟨⟨⟨_, text, ordered, numeral⟩, word, given, named⟩, holds⟩
        exact ⟨text, ordered, i.order, numeral, word, given, i.opcode, named, rfl, rfl, holds⟩
    · -- Whatever is wrong, what was read before it is part of the complaint's condition.
      constructor
      · rintro (⟨missing, rfl⟩ | ⟨text, ordered, ⟨wrong, rfl⟩ | ⟨n, numeral, rest⟩⟩)
        · exact .unordered tag missing
        · exact .order tag ordered wrong
        · have isOrdered : IsOrdered e n := ⟨tag, text, ordered, numeral⟩
          rcases rest with ⟨missing, rfl⟩ | ⟨word, given, ⟨unknown, rfl⟩ | ⟨opcode, named, wrong⟩⟩
          · exact .unnamed isOrdered missing
          · exact .opcode isOrdered given unknown
          · exact .operands ⟨isOrdered, word, given, named⟩ wrong
      · intro wrong
        cases wrong with
        | tag other => exact absurd tag other
        | unordered _ missing => exact .inl ⟨missing, rfl⟩
        | order _ given wrong => exact .inr ⟨_, given, .inl ⟨wrong, rfl⟩⟩
        | unnamed ordered missing =>
          obtain ⟨_, text, place, numeral⟩ := ordered
          exact .inr ⟨text, place, .inr ⟨_, numeral, .inl ⟨missing, rfl⟩⟩⟩
        | opcode ordered given unknown =>
          obtain ⟨_, text, place, numeral⟩ := ordered
          exact .inr ⟨text, place, .inr ⟨_, numeral, .inr ⟨_, given, .inl ⟨unknown, rfl⟩⟩⟩⟩
        | operands head wrong =>
          obtain ⟨⟨_, text, place, numeral⟩, word, given, named⟩ := head
          exact .inr ⟨text, place, .inr ⟨_, numeral, .inr ⟨word, given, .inr ⟨_, named, wrong⟩⟩⟩⟩
  · rw [instruction, if_pos tag]
    refine .failure ?_ fun complaint => noInstruction_of_tag tag
    rintro i ⟨⟨⟨same, _⟩, _⟩, _⟩
    exact tag same

/-- A root makes the program that it describes, or none for the first thing wrong in it. -/
theorem program_endsAs (root : Element) :
    EndsAs (program root) (DescribesProgram root) (NoProgram root) := by
  -- The root is looked at first, and then its elements one after another.
  by_cases begins : root.tag = "program" ∧ root.attribute? "language" = some language
  · have instructions : EndsAs (root.elements.mapM instruction) _ _ :=
      .mapM (List.forall₂_same.mpr fun e _ => instruction_endsAs e)
    have whole : EndsAs (root.elements.mapM instruction >>= fun code =>
        .ok { instructions := code : Program }) _ _ :=
      instructions.bind fun code _ => .value (fun p => Iff.rfl) (fun _ => not_false)
    rw [program, if_pos begins]
    refine whole.congr (fun p => ?_) fun complaint => ?_
    · constructor
      · rintro ⟨code, described, rfl⟩
        exact ⟨begins.1, begins.2, described⟩
      · rintro ⟨_, _, described⟩
        exact ⟨p.instructions, described, rfl⟩
    · constructor
      · rintro (first | ⟨_, _, nothing⟩)
        · exact .instruction begins.1 begins.2 first
        · cases nothing
      · intro wrong
        cases wrong with
        | root other => exact absurd begins other
        | instruction _ _ first => exact .inl first
  · rw [program, if_neg begins]
    refine .failure ?_ fun complaint => ?_
    · rintro p ⟨tag, given, _⟩
      exact begins ⟨tag, given⟩
    · constructor
      · intro wrong
        cases wrong with
        | root => rfl
        | instruction tag given => exact absurd ⟨tag, given⟩ begins
      · rintro rfl
        exact .root begins

/-- What is wrong with the tree of a document is a matter of its structure. -/
theorem NoProgram.failure_eq {root : Element} {complaint : Error} (h : NoProgram root complaint) :
    complaint.failure = .invalidStructure := by
  -- The only error of another class is about documents that have no tree.
  have ofArgument {n : UInt64} {e : Element} {complaint : Error} (h : NoArgument n e complaint) :
      complaint.failure = .invalidStructure := by
    cases h <;> rfl
  have ofInstruction {e : Element} {complaint : Error} (h : NoInstruction e complaint) :
      complaint.failure = .invalidStructure := by
    cases h with
    | operands _ wrong =>
      cases wrong with
      | argument first =>
        obtain ⟨a, _, wrong⟩ := first.exists_wrong
        exact ofArgument wrong
      | position => rfl
      | text => rfl
    | _ => rfl
  cases h with
  | root => rfl
  | instruction _ _ first =>
    obtain ⟨e, _, wrong⟩ := first.exists_wrong
    exact ofInstruction wrong

/-- Elements that differ at most in what stands between the elements in them. -/
def Alike (e d : Element) : Prop :=
  e.tag = d.tag ∧ e.attributes = d.attributes ∧ e.elements = d.elements

/-- An instruction is the same, whatever stands between its arguments. -/
theorem Alike.instruction_eq {e d : Element} (h : Alike e d) : instruction e = instruction d := by
  -- Nothing of an element is read but its tag, its attributes and its elements.
  obtain ⟨tag, attributes, elements⟩ := h
  simp only [instruction, required, Element.attribute?, tag, attributes, elements]

/-- A program is the same, whatever stands between its instructions and in them. -/
theorem program_congr {root other : Element} (tag : root.tag = other.tag)
    (attributes : root.attributes = other.attributes)
    (alike : List.Forall₂ Alike root.elements other.elements) : program root = program other := by
  -- Instructions are read one by one, and nothing else of the root but its tag and attributes.
  have code {l l' : List Element} (alike : List.Forall₂ Alike l l') :
      l.mapM instruction = l'.mapM instruction := by
    induction alike with
    | nil => rfl
    | cons first rest ih => rw [List.mapM_cons, List.mapM_cons, first.instruction_eq, ih]
  unfold program Element.attribute?
  rw [tag, attributes, code alike]

/-- A document is loaded as the tree that its reader finds in it. -/
theorem loadWith_of_read {read : String → Option Element} {document : String} {root : Element}
    (found : read document = some root) : loadWith read document = program root := by
  -- Nothing but the tree is looked at.
  rw [loadWith, found]

/--
Loading accepts exactly the documents of the grammar, and has one complaint about any other.

Given the tree of a document, whatever reader finds it, the program is the one that the tree
describes, and otherwise the complaint is about the structure of the tree and the first that
applies. Texts and remarks between instructions and between arguments make no difference.
-/
theorem loading_follows_grammar (root : Element) :
    (∀ p, program root = .ok p ↔ DescribesProgram root p) ∧
    (∀ e, program root = .error e ↔ NoProgram root e) ∧
    (∀ e, program root = .error e → e.failure = .invalidStructure) ∧
    (∀ other : Element, root.tag = other.tag → root.attributes = other.attributes →
      List.Forall₂ Alike root.elements other.elements → program root = program other) ∧
    ∀ (read : String → Option Element) (document : String), read document = some root →
      loadWith read document = program root := by
  -- What the loader does with the tree is what the grammar says, and it does nothing else.
  have ends := program_endsAs root
  refine ⟨ends.ok_iff, ends.error_iff, fun e failed => ?_, fun other => program_congr, ?_⟩
  · exact ((ends.error_iff e).mp failed).failure_eq
  · exact fun _ _ => loadWith_of_read

/-- A document with a remark, and with a text between its instructions. -/
def remarked : String :=
  "<program language=\"IPPcode23\"><!-- tell -->\n" ++
    "<instruction order=\"70\" opcode=\"write\"><arg1 type=\"var\">GF@a b</arg1></instruction>" ++
    " and <instruction opcode=\"Break\" order=\"8\"/></program>"

/-- The tree of a document with an unknown operation, whose argument has no type either. -/
def slipped : Element :=
  { tag := "program"
    attributes := [("language", "IPPcode23")]
    children := [.element "instruction" [("opcode", "NOPE"), ("order", "10")]
      [.element "arg2" [] []]] }

/-- Two instructions are described, and the unknown operation is what is wrong. -/
theorem loading_follows_grammar_of_remarked :
    (∃ root, Markup.root? remarked = some root ∧
      DescribesProgram root ⟨[⟨.write, 70, [.var ⟨.globalFrame, "a b"⟩]⟩, ⟨.dump, 8, []⟩]⟩) ∧
    NoProgram slipped (.unknownOperation 10 "NOPE") := by
  -- The reader finds some tree, and the grammar says what is described by it.
  constructor
  · have loaded : load remarked =
        .ok ⟨[⟨.write, 70, [.var ⟨.globalFrame, "a b"⟩]⟩, ⟨.dump, 8, []⟩]⟩ := by
      decide +kernel
    cases found : Markup.root? remarked with
    | none =>
      rw [load, loadWith, found] at loaded
      cases loaded
    | some root =>
      obtain ⟨accepted, _, _, _, documents⟩ := loading_follows_grammar root
      have described := (documents Markup.root? remarked found).symm.trans loaded
      exact ⟨root, rfl, (accepted _).mp described⟩
  · have refused := (loading_follows_grammar slipped).2.1
    exact (refused _).mp (by decide +kernel)

end ThreeAddress.Document
