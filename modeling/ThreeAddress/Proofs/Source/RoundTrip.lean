import ThreeAddress.Proofs.Language.Renumbering
import ThreeAddress.Proofs.Source.Expressible
import ThreeAddress.Source.Listing

/-!
The listing of a program assembles to the program with its orders renumbered, exactly when source
text can express each of its instructions.
-/

namespace ThreeAddress

/-- Labels and variables have names without blanks and comment marks, and other operands none. -/
def Operand.isPlain : Operand → Bool
  | .var x => x.name.toList.all Source.isWordChar
  | .label name => name.toList.all Source.isWordChar
  | _ => true

namespace Source

/-- The characters of names can stand in a word. -/
theorem isWordChar_of_isNameChar {c : Char} (named : isNameChar c = true) :
    isWordChar c = true := by
  -- There are six characters that cannot, and none of them stands in a name.
  by_contra foreign
  simp only [isWordChar, Text.isAsciiBlank, Bool.not_eq_true, Bool.and_eq_false_iff,
    Bool.not_eq_false', Bool.or_eq_true, decide_eq_true_eq, decide_eq_false_iff_not,
    not_not] at foreign
  rcases foreign with ((((rfl | rfl) | rfl) | rfl) | rfl) | rfl
  all_goals exact absurd named (by decide)

private theorem isNameChar_of_isName {name : List Char} (named : isName name = true) {c : Char}
    (member : c ∈ name) : isNameChar c = true := by
  -- Every character of a name is one of those that names have.
  cases name with
  | nil => cases member
  | cons d rest =>
    simp only [isName, Bool.and_eq_true, List.all_eq_true] at named
    rcases List.mem_cons.mp member with rfl | member
    · simp [isNameChar, named.1]
    · exact named.2 c member

/-- A name makes a word. -/
theorem isWord_of_isName {name : List Char} (named : isName name = true) : IsWord name :=
  ⟨ne_nil_of_isName named, fun _ member =>
    isWordChar_of_isNameChar (isNameChar_of_isName named member)⟩

private theorem isWord_marked {front : String} {content : String} (word : IsWord front.toList)
    (fine : ∀ c ∈ content.toList, isWordChar c = true) :
    IsWord (front ++ "@" ++ content).toList := by
  -- A word that goes on behind an at sign is a word.
  constructor
  · simp
  · -- Each character stands before, at or behind the mark.
    intro c member
    simp only [String.toList_append, List.mem_append] at member
    rcases member with (member | member) | member
    · exact word.2 c member
    · rw [List.mem_singleton.mp member]
      decide
    · exact fine c member

private theorem isWordChar_of_mem_escape {text : List Char} {c : Char}
    (member : c ∈ Text.escape text) : isWordChar c = true := by
  -- Escaped text can stand in a word.
  rcases Text.mem_escape member with rfl | digit | plain
  · decide
  · exact isWordChar_of_isNameChar (by simp [isNameChar, digit])
  · -- What needs no escape is above the space and no comment mark.
    simp only [Text.needsEscape, Bool.or_eq_false_iff, decide_eq_false_iff_not] at plain
    exact isWordChar_of_lt (by omega) plain.1.2

private theorem isWordChar_of_mem_repr {n : Int} {c : Char} (member : c ∈ n.repr.toList) :
    isWordChar c = true := by
  -- Digits and the minus sign both stand in names, and names stand in words.
  have decimal {m : Nat} (member : c ∈ Nat.toDigits 10 m) : isWordChar c = true := by
    have digit := Nat.isDigit_of_mem_toDigits (by decide) (by decide) member
    exact isWordChar_of_isNameChar (by simp [isNameChar, digit])
  rw [Text.toList_repr_int] at member
  split at member
  · exact decimal member
  · rcases List.mem_cons.mp member with rfl | member
    · decide
    · exact decimal member

/-- Every type name is a word. -/
theorem isWord_typeName (t : DataType) : IsWord t.name.toList := by
  -- The names of the types are written in letters.
  cases t <;> exact .of_all (by decide) (by decide)

/-- The canonical form of a value is a word, whatever the value. -/
theorem isWord_literalText (value : Value) : IsWord (Operand.literalText value).toList := by
  -- The type, the mark and the text are each free of blanks and comment marks.
  refine isWord_marked (isWord_typeName value.dataType) fun c member => ?_
  cases value with
  | int n => exact isWordChar_of_mem_repr member
  | bool b =>
    have plain : (Value.boolText b).toList.all isWordChar = true := by
      cases b <;> decide
    exact List.all_eq_true.mp plain c member
  | string s =>
    simp only [String.toList_ofList] at member
    exact isWordChar_of_mem_escape member
  | nil =>
    have plain : "nil".toList.all isWordChar = true := by
      decide
    exact List.all_eq_true.mp plain c member

/-- The canonical form of an operand is a word if its name can stand in one. -/
theorem isWord_text_of_plain {o : Operand} (nonempty : o ≠ .label "") (plain : o.isPlain = true) :
    IsWord o.text.toList := by
  -- Names and types are words by themselves, and tags and types are words before a mark.
  cases o with
  | literal value => exact isWord_literalText value
  | var x =>
    have tagged : IsWord x.frame.name.toList := by
      cases x.frame <;> exact .of_all (by decide) (by decide)
    exact isWord_marked tagged (List.all_eq_true.mp plain)
  | label name => exact .of_all (by simpa [Operand.text] using nonempty) plain
  | type t => exact isWord_typeName t

/-- Admissible names can stand in a word. -/
theorem isPlain_of_isNamed {o : Operand} (named : o.isNamed = true) :
    o ≠ .label "" ∧ o.isPlain = true := by
  -- The characters of a name are all such that words can hold them.
  constructor
  · rintro rfl
    cases named
  · cases o with
    | literal value => rfl
    | var x => exact List.all_eq_true.mpr (isWord_of_isName named).2
    | label name => exact List.all_eq_true.mpr (isWord_of_isName named).2
    | type t => rfl

/-- The canonical form of an operand with an admissible name is a word. -/
theorem isWord_text {o : Operand} (named : o.isNamed = true) : IsWord o.text.toList :=
  isWord_text_of_plain (isPlain_of_isNamed named).1 (isPlain_of_isNamed named).2

/-- Every mnemonic is a word. -/
theorem isWord_mnemonic (opcode : Opcode) : IsWord opcode.mnemonic.toList := by
  -- Mnemonics are written in letters and digits.
  cases opcode <;> exact .of_all (by decide) (by decide)

end Source

namespace Instruction

/-- The words of an instruction: its mnemonic and the canonical forms of its operands. -/
def listedWords (i : Instruction) : List String :=
  i.opcode.mnemonic :: i.operands.map Operand.text

/-- The words of an instruction stay apart when they are joined. -/
def IsWorded (i : Instruction) : Prop :=
  ∀ word ∈ i.listedWords, Source.IsWord word.toList

/-- An instruction has words that stay apart if the canonical forms of its operands are words. -/
theorem isWorded_of_operands {i : Instruction}
    (words : ∀ o ∈ i.operands, Source.IsWord o.text.toList) : i.IsWorded := by
  -- The first word is the mnemonic, and the others come from operands.
  intro word member
  rcases List.mem_cons.mp member with rfl | member
  · exact Source.isWord_mnemonic i.opcode
  · obtain ⟨o, among, rfl⟩ := List.mem_map.mp member
    exact words o among

/-- The words of an expressible instruction stay apart when they are joined. -/
theorem Expressible.isWorded {i : Instruction} (h : i.Expressible) : i.IsWorded :=
  isWorded_of_operands fun o member => Source.isWord_text (h.2 o member)

/-- The line of an instruction whose words stay apart has these words. -/
theorem IsWorded.lineWords_listing {i : Instruction} (h : i.IsWorded) :
    Source.lineWords i.listing.toList = i.listedWords :=
  Source.lineWords_intercalate h

/-- The line of an instruction whose words stay apart is a single line. -/
theorem IsWorded.unbroken {i : Instruction} (h : i.IsWorded) : '\n' ∉ i.listing.toList := by
  -- A line feed could stand in a word only, since words are joined by spaces.
  intro member
  rw [listing, String.toList_intercalate] at member
  rcases Source.mem_intercalate member with space | ⟨word, among, member⟩
  · exact absurd space (by decide)
  · -- Words have no blanks at all, and a line feed is one.
    obtain ⟨text, listed, rfl⟩ := List.mem_map.mp among
    exact (h text listed).unbroken member

/-- The words of an expressible instruction make that instruction with whatever order. -/
theorem Expressible.instruction_listedWords {i : Instruction} (h : i.Expressible)
    (order : UInt64) : Source.instruction order i.listedWords = .ok { i with order } := by
  -- The operands fit, so that their texts spell them again.
  have fits := misfit?_eq_none_iff.mp h.1
  exact Source.instruction_eq_ok_iff.mpr ⟨i.opcode, i.operands,
    Opcode.ofMnemonic?_mnemonic i.opcode, Source.spellsAll_text fits h.2, rfl⟩

end Instruction

namespace Source

/-- The lines of listed instructions, where `number` is the number of the first line. -/
def listedLines (number : Nat) : List Instruction → List Line
  | [] => []
  | i :: rest => { number, words := i.listedWords } :: listedLines (number + 1) rest

/-- Instructions whose words stay apart are read line by line. -/
theorem numberLines_listings {code : List Instruction} (h : ∀ i ∈ code, i.IsWorded)
    (number : Nat) :
    numberLines number (code.map fun i => i.listing.toList) = listedLines number code := by
  -- Every line has words, so none is skipped.
  induction code generalizing number with
  | nil => rfl
  | cons i rest ih =>
    have first := (h i List.mem_cons_self).lineWords_listing
    have others := ih (fun j member => h j (List.mem_cons_of_mem i member)) (number + 1)
    rw [List.map_cons, numberLines, first, others]
    rfl

/-- The lines of expressible instructions make these instructions, numbered by their ranks. -/
theorem instructions_listedLines {code : List Instruction} (h : ∀ i ∈ code, i.Expressible)
    (number rank : Nat) :
    instructions rank (listedLines number code) = .ok (Instruction.renumber rank code) := by
  -- The line number and the rank go up together, though only ranks become orders.
  induction code generalizing number rank with
  | nil => rfl
  | cons i rest ih =>
    have first := h i List.mem_cons_self
    have others := ih (fun j member => h j (List.mem_cons_of_mem i member)) (number + 1) (rank + 1)
    rw [listedLines, instructions, first.instruction_listedWords, others]
    rfl

private theorem toList_listing (p : Program) :
    p.listing.toList = (headerText.toList :: p.sorted.map fun i => i.listing.toList).flatMap
      fun line => line ++ ['\n'] := by
  -- The characters of a listing: the header and the listed instructions, each on a line.
  rw [Program.listing, String.toList_join]
  simp [List.map_map, Function.comp_def, List.flatMap_def]

/-- The listing of instructions whose words stay apart is assembled from these words. -/
theorem assemble_of_worded {p : Program} (h : ∀ i ∈ p.instructions, i.IsWorded) :
    assemble p.listing =
      (instructions 1 (listedLines 2 p.sorted)).map fun code => { instructions := code } := by
  have worded : ∀ i ∈ p.sorted, i.IsWorded := fun i member =>
    h i (Program.mem_sorted.mp member)
  -- The lines come apart because neither the header nor an instruction goes over several lines.
  have unbroken : ∀ line ∈ headerText.toList :: p.sorted.map fun i => i.listing.toList,
      '\n' ∉ line := by
    intro line member
    rcases List.mem_cons.mp member with rfl | member
    · decide
    · obtain ⟨i, among, rfl⟩ := List.mem_map.mp member
      exact (worded i among).unbroken
  -- The header is the first line, and it is read as one word.
  have header : lineWords headerText.toList = [headerText] := by decide
  have accepted : isHeader [headerText] = true := by decide
  have numbered : numberLines 1 (cutLines p.listing.toList) = ⟨1, [headerText]⟩ ::
      listedLines 2 p.sorted := by
    rw [toList_listing, cutLines_flatMap unbroken, numberLines, header,
      ← numberLines_listings worded]
  unfold assemble
  simp only [numbered, accepted, if_true]

/-- The listing of expressible instructions assembles to the renumbered program. -/
theorem assemble_listing {p : Program} (h : ∀ i ∈ p.instructions, i.Expressible) :
    assemble p.listing = .ok p.renumbered := by
  -- The lines of the listing are read as the instructions that were listed.
  have expressible : ∀ i ∈ p.sorted, i.Expressible := fun i member =>
    h i (Program.mem_sorted.mp member)
  rw [assemble_of_worded fun i member => (h i member).isWorded,
    instructions_listedLines expressible]
  rfl

/-- Whatever instruction a line makes is expressible. -/
theorem expressible_of_instruction {order : UInt64} {line : List String} {i : Instruction}
    (built : instruction order line = .ok i) : i.Expressible := by
  -- Whatever the words of a line spell fits the slots of the operation.
  cases line with
  | nil =>
    -- No words spell no operation.
    cases built
  | cons mnemonic words =>
    obtain ⟨opcode, operands, _, spelled, rfl⟩ := instruction_eq_ok_iff.mp built
    exact ⟨Instruction.misfit?_eq_none_iff.mpr spelled.fits.1, spelled.fits.2⟩

/-- Whatever instructions lines make are expressible. -/
theorem expressible_of_instructions {rank : Nat} {lines : List Line} {code : List Instruction}
    (built : instructions rank lines = .ok code) : ∀ i ∈ code, i.Expressible := by
  -- Lines are assembled one by one, and the first failure would have ended it.
  induction lines generalizing rank code with
  | nil =>
    cases built
    simp
  | cons line rest ih =>
    obtain ⟨first, made, built⟩ := bind_eq_ok_iff.mp built
    obtain ⟨others, remaining, built⟩ := bind_eq_ok_iff.mp built
    cases built
    rw [List.forall_mem_cons]
    exact ⟨expressible_of_instruction (mapError_eq_ok_iff.mp made), ih remaining⟩

/-- Whatever program a text assembles to has only expressible instructions. -/
theorem expressible_of_assemble {text : String} {q : Program} (built : assemble text = .ok q) :
    ∀ i ∈ q.instructions, i.Expressible := by
  -- All instructions come from the lines behind the header.
  unfold assemble at built
  dsimp only at built
  split at built
  · cases built
  · split at built
    · -- The first line with words is the header, and the others are assembled.
      rename_i first rest _ _
      cases made : instructions 1 rest with
      | error e => simp [made, Except.map] at built
      | ok code =>
        simp only [made, Except.map, Except.ok.injEq] at built
        exact built ▸ expressible_of_instructions made
    · cases built

/-- A listing assembles to the renumbered program exactly when source text can express it all. -/
theorem assemble_listing_iff {p : Program} :
    assemble p.listing = .ok p.renumbered ↔ ∀ i ∈ p.instructions, i.Expressible := by
  constructor
  · intro built
    -- Only expressible instructions come out of source text, and orders make no difference.
    have expressible := expressible_of_assemble built
    rw [Program.renumbered, Instruction.forall_mem_renumber fun _ _ => Iff.rfl] at expressible
    exact fun i member => expressible i (Program.mem_sorted.mpr member)
  · exact assemble_listing

/--
A listing reads back as its program exactly when source text can express the program: no operand
is out of place, and labels and variables have names.

What reads back are the instructions in sequence, numbered one, two, three and so on, as no list in
memory is long enough to exhaust the orders.
-/
theorem listing_round_trip (p : Program) :
    (assemble p.listing = .ok p.renumbered ↔ ∀ i ∈ p.instructions, i.Expressible) ∧
    p.renumbered.instructions.map (fun i => (i.opcode, i.operands)) =
      p.sorted.map (fun i => (i.opcode, i.operands)) ∧
    (p.instructions.length < UInt64.size →
      p.renumbered.instructions.map (fun i => i.order.toNat) =
        List.range' 1 p.instructions.length) :=
  ⟨assemble_listing_iff, Instruction.contents_renumber, Program.orders_renumbered⟩

/-- A program that writes a text with a blank, a number sign and a line feed, and ends. -/
def greeting : Program :=
  { instructions := [⟨.exit, 9, [.literal (.int 0)]⟩, ⟨.write, 5, [.literal (.string "a #\n")]⟩] }

/-- The two instructions of the greeting are numbered one and two when its listing is read. -/
theorem listing_round_trip_of_greeting :
    assemble greeting.listing = .ok greeting.renumbered ∧
      greeting.renumbered.instructions.map (fun i => i.order.toNat) = [1, 2] := by
  -- The greeting has no more than admissible names and operands that fit.
  obtain ⟨exactly, _, numbered⟩ := listing_round_trip greeting
  refine ⟨exactly.mpr ?_, numbered (by decide)⟩
  unfold Instruction.Expressible
  decide

end Source

end ThreeAddress
