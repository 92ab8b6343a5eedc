import ThreeAddress.Proofs.Source.Lines
import ThreeAddress.Proofs.Source.Statement
import ThreeAddress.Proofs.Text.Utf8

/-!
Which texts are accepted: a header with a statement on each further line that has words. Any other
text is rejected for the first line that is not as it has to be.
-/

namespace ThreeAddress.Source

/-- The words of a header: a single one, in which the case of ASCII letters does not matter. -/
def IsHeader (words : List String) : Prop :=
  ∃ word : String, words = [word] ∧
    word.toList.map Char.toLower = headerText.toList.map Char.toLower

/-- A text that spells a program: its statements are the instructions, numbered from one. -/
inductive Accepted (text : String) (p : Program) : Prop where
  | intro {header : Line} {rest : List Line} (lines : codeLines text.toList = header :: rest)
      (begins : IsHeader header.words)
      (statements : List.Forall₂ (fun line i => Statement line.words i.opcode i.operands) rest
        p.instructions)
      (numbered : p.instructions.map (fun i => i.order.toNat) =
        List.range' 1 p.instructions.length)

/-- The fault of the first line that is no statement, with the number of that line. -/
inductive FirstFault : List Line → Error → Prop where
  | here {line : Line} {rest : List Line} {problem : Problem} (fault : Faulty line.words problem) :
      FirstFault (line :: rest) { line := line.number, problem }
  | behind {line : Line} {rest : List Line} {opcode : Opcode} {operands : List Operand} {e : Error}
      (fine : Statement line.words opcode operands) (later : FirstFault rest e) :
      FirstFault (line :: rest) e

/-- A text that spells no program, with the fault of the first line that is to blame. -/
inductive Rejected (text : String) : Error → Prop where
  /-- Without any word the last line is to blame, or the first one if there is no line at all. -/
  | empty (blank : codeLines text.toList = []) :
      Rejected text { line := max (lineCount text.toList) 1, problem := .header }
  | header {first : Line} {rest : List Line} (lines : codeLines text.toList = first :: rest)
      (other : ¬ IsHeader first.words) : Rejected text { line := first.number, problem := .header }
  | line {header : Line} {rest : List Line} {e : Error}
      (lines : codeLines text.toList = header :: rest) (begins : IsHeader header.words)
      (fault : FirstFault rest e) : Rejected text e

/-- A header is recognised by its only word. -/
theorem isHeader_iff {words : List String} : isHeader words = true ↔ IsHeader words := by
  -- More words than one, or none, make no header.
  unfold isHeader IsHeader
  split
  · simp
  · rename_i other
    refine iff_of_false nofun ?_
    rintro ⟨word, rfl, _⟩
    exact other word rfl

/-- Lines make instructions exactly if they are statements, whose ranks become the orders. -/
theorem instructions_ok_iff {rank : Nat} {lines : List Line} {code : List Instruction}
    (small : rank + lines.length ≤ UInt64.size) :
    instructions rank lines = .ok code ↔
      List.Forall₂ (fun line i => Statement line.words i.opcode i.operands) lines code ∧
        code.map (fun i => i.order.toNat) = List.range' rank code.length := by
  -- Each line is assembled with the rank that has been reached, which is still an order.
  induction lines generalizing rank code with
  | nil =>
    constructor
    · intro built
      cases built
      exact ⟨.nil, rfl⟩
    · rintro ⟨⟨⟩, _⟩
      rfl
  | cons line rest ih =>
    rw [List.length_cons] at small
    have below : rank < UInt64.size := by omega
    have later : rank + 1 + rest.length ≤ UInt64.size := by omega
    rw [instructions, bind_eq_ok_iff]
    constructor
    · rintro ⟨i, made, built⟩
      obtain ⟨others, remaining, built⟩ := bind_eq_ok_iff.mp built
      cases built
      obtain ⟨statement, order⟩ := instruction_ok_iff.mp (mapError_eq_ok_iff.mp made)
      obtain ⟨statements, numbered⟩ := (ih later).mp remaining
      refine ⟨.cons statement statements, ?_⟩
      rw [List.map_cons, numbered, order, UInt64.toNat_ofNat_of_lt' below, List.length_cons,
        List.range'_succ]
    · rintro ⟨statements, numbered⟩
      cases statements with
      | @cons _ i _ others statement statements =>
        rw [List.map_cons, List.length_cons, List.range'_succ] at numbered
        obtain ⟨first, numbered⟩ := List.cons.inj numbered
        have order : i.order = UInt64.ofNat rank := by
          rw [← first, UInt64.ofNat_toNat]
        refine ⟨i, mapError_eq_ok_iff.mpr (instruction_ok_iff.mpr ⟨statement, order⟩), ?_⟩
        exact bind_eq_ok_iff.mpr ⟨others, (ih later).mpr ⟨statements, numbered⟩, rfl⟩

/-- Lines with words make no instructions exactly if one has a fault, and the first is reported. -/
theorem instructions_error_iff {rank : Nat} {lines : List Line} {e : Error}
    (worded : ∀ line ∈ lines, line.words ≠ []) :
    instructions rank lines = .error e ↔ FirstFault lines e := by
  -- A line is a statement or has a fault, and only behind a statement the others are looked at.
  induction lines generalizing rank with
  | nil => exact iff_of_false nofun nofun
  | cons line rest ih =>
    have others : instructions (rank + 1) rest = .error e ↔ FirstFault rest e :=
      ih fun later member => worded later (List.mem_cons_of_mem line member)
    obtain ⟨mnemonic, words, split⟩ := List.exists_cons_of_ne_nil (worded line List.mem_cons_self)
    rw [instructions, bind_eq_error_iff]
    constructor
    · rintro (failed | ⟨i, made, failed⟩)
      · obtain ⟨problem, faulty, rfl⟩ := mapError_eq_error_iff.mp failed
        refine .here ?_
        rw [split] at faulty ⊢
        exact instruction_error_iff.mp faulty
      · obtain ⟨statement, _⟩ := instruction_ok_iff.mp (mapError_eq_ok_iff.mp made)
        rcases bind_eq_error_iff.mp failed with failed | ⟨_, _, failed⟩
        · exact .behind statement (others.mp failed)
        · cases failed
    · intro fault
      cases fault with
      | here fault =>
        refine .inl (mapError_eq_error_iff.mpr ⟨_, ?_, rfl⟩)
        rw [split] at fault ⊢
        exact instruction_error_iff.mpr fault
      | @behind _ _ opcode operands _ fine later =>
        let i : Instruction := { opcode, order := UInt64.ofNat rank, operands }
        refine .inr ⟨i, mapError_eq_ok_iff.mpr (instruction_ok_iff.mpr ⟨fine, rfl⟩), ?_⟩
        exact bind_eq_error_iff.mpr (.inl (others.mpr later))

private theorem assemble_of_blank {text : String} (blank : codeLines text.toList = []) :
    assemble text = .error { line := max (lineCount text.toList) 1, problem := .header } := by
  -- The lines that are numbered are the ones with words.
  unfold assemble
  simp only [numberLines_cutLines, length_cutLines, blank]

private theorem assemble_of_lines {text : String} {first : Line} {rest : List Line}
    (lines : codeLines text.toList = first :: rest) :
    assemble text =
      if isHeader first.words then (instructions 1 rest).map fun is => { instructions := is }
      else .error { line := first.number, problem := .header } := by
  -- Again the lines that are numbered are the ones with words.
  unfold assemble
  simp only [numberLines_cutLines, lines]

/-- A text that is short enough for orders assembles to the program that it spells, if any. -/
theorem assemble_ok_iff {text : String} (small : text.utf8ByteSize < 2 ^ 63) {p : Program} :
    assemble text = .ok p ↔ Accepted text p := by
  -- There are fewer statements than characters, so that each rank is an order.
  have bytes := Text.length_le_utf8ByteSize text
  have count := length_codeLines text.toList
  cases lines : codeLines text.toList with
  | nil =>
    rw [assemble_of_blank lines]
    refine iff_of_false nofun ?_
    rintro ⟨same, _, _, _⟩
    cases lines.symm.trans same
  | cons first rest =>
    rw [lines, List.length_cons] at count
    have room : 1 + rest.length ≤ UInt64.size := by
      have : 2 ^ 63 ≤ UInt64.size := by decide
      omega
    rw [assemble_of_lines lines]
    split
    · rename_i begins
      rw [map_eq_ok_iff]
      constructor
      · rintro ⟨code, built, rfl⟩
        obtain ⟨statements, numbered⟩ := (instructions_ok_iff room).mp built
        exact .intro lines (isHeader_iff.mp begins) statements numbered
      · rintro ⟨same, _, statements, numbered⟩
        cases lines.symm.trans same
        exact ⟨p.instructions, (instructions_ok_iff room).mpr ⟨statements, numbered⟩, rfl⟩
    · rename_i other
      refine iff_of_false nofun ?_
      rintro ⟨same, begins, _, _⟩
      cases lines.symm.trans same
      exact other (isHeader_iff.mpr begins)

/-- A text that assembles to no program is rejected for its first fault, and only for that. -/
theorem assemble_error_iff {text : String} {e : Error} :
    assemble text = .error e ↔ Rejected text e := by
  -- Each way to be rejected presupposes other lines with words, so that no two apply to one text.
  cases lines : codeLines text.toList with
  | nil =>
    rw [assemble_of_blank lines]
    constructor
    · intro failed
      cases failed
      exact .empty lines
    · intro rejected
      cases rejected with
      | empty => rfl
      | header same => cases lines.symm.trans same
      | line same => cases lines.symm.trans same
  | cons first rest =>
    have worded : ∀ line ∈ rest, line.words ≠ [] := fun line member =>
      words_of_mem_codeLines (lines ▸ List.mem_cons_of_mem first member)
    rw [assemble_of_lines lines]
    split
    · rename_i begins
      rw [map_eq_error_iff, instructions_error_iff worded]
      constructor
      · exact .line lines (isHeader_iff.mp begins)
      · intro rejected
        cases rejected with
        | empty blank => cases blank.symm.trans lines
        | header same other =>
          cases lines.symm.trans same
          exact absurd (isHeader_iff.mp begins) other
        | line same _ fault =>
          cases lines.symm.trans same
          exact fault
    · rename_i other
      constructor
      · intro failed
        cases failed
        exact .header lines fun begins => other (isHeader_iff.mpr begins)
      · intro rejected
        cases rejected with
        | empty blank => cases blank.symm.trans lines
        | header same =>
          cases lines.symm.trans same
          rfl
        | line same begins =>
          cases lines.symm.trans same
          exact absurd (isHeader_iff.mpr begins) other

/--
Assembling accepts exactly the texts of the grammar, and reports the first fault of any other.

No text in memory has as many bytes as there are orders, so that no order is used twice.
-/
theorem assemble_follows_grammar (text : String) (small : text.utf8ByteSize < 2 ^ 63) :
    (∀ p, assemble text = .ok p ↔ Accepted text p) ∧
      ∀ e, assemble text = .error e ↔ Rejected text e :=
  ⟨fun _ => assemble_ok_iff small, fun _ => assemble_error_iff⟩

/-- A text with a comment, a header and a statement in an unusual notation. -/
def shout : String :=
  "# loud\n.IPPCODE23\n\tdPrint  int@+0X2a# forty-two\r\n"

/-- A text whose third line has a numeral with a digit that is none in its base. -/
def slip : String :=
  ".ippcode23\n\nwrite int@0o8\nNOPE"

/-- The statement is the instruction of order one, and the numeral is what is wrong. -/
theorem assemble_follows_grammar_of_shout :
    Accepted shout ⟨[⟨.dprint, 1, [.literal (.int 42)]⟩]⟩ ∧
      Rejected slip { line := 3, problem := .invalid (.invalidInt "0o8") } := by
  -- Both texts are assembled by computation.
  have loud := (assemble_follows_grammar shout (by decide)).1
  have slipped := (assemble_follows_grammar slip (by decide)).2
  exact ⟨(loud _).mp (by decide +kernel), (slipped _).mp (by decide +kernel)⟩

end ThreeAddress.Source
