import Mathlib.Data.List.Basic
import ThreeAddress.Proofs.Document.Acceptance
import ThreeAddress.Proofs.Language.Defects
import ThreeAddress.Proofs.Source.RoundTrip

/-!
Reading the listing of a document again. Names in documents can be any text, and in a listing some
of them are cut short. Where no name holds what separates words, a listing is read as the program
that it lists, or not at all.
-/

namespace ThreeAddress

open Markup (Element)

namespace Document

/-- No text denotes an empty label. -/
theorem Denotes.nonempty {declared : ArgumentType} {text : String} {o : Operand}
    (h : Denotes declared text o) : o ≠ .label "" := by
  -- Only a label is denoted as a label, and its text is asked for.
  cases h with
  | literal => exact nofun
  | label nonempty => exact fun empty => nonempty (Operand.label.inj empty)
  | type => exact nofun
  | var => exact nofun

/-- No document has an instruction with an empty label. -/
theorem nonempty_of_loadWith {read : String → Option Element} {document : String} {p : Program}
    (loaded : loadWith read document = .ok p) :
    ∀ i ∈ p.instructions, ∀ o ∈ i.operands, o ≠ .label "" := by
  -- Nothing but texts of elements becomes an operand.
  intro i member o operand
  unfold loadWith at loaded
  split at loaded
  · cases loaded
  · -- Some element holds the operand in a text.
    obtain ⟨_, _, described⟩ := ((program_endsAs _).ok_iff p).mp loaded
    obtain ⟨e, _, placed, _, _, holds⟩ := exists_of_mem_right described member
    obtain ⟨a, declared, _, denotes⟩ := exists_of_mem_right holds operand
    exact denotes.nonempty

end Document

namespace Source

/-- Only names of source text are read from the lines of instructions whose operands fit. -/
theorem expressible_of_listedLines {code made : List Instruction} {number rank : Nat}
    (fits : ∀ i ∈ code, i.misfit? = none)
    (built : instructions rank (listedLines number code) = .ok made) :
    ∀ i ∈ code, i.Expressible := by
  -- A line is read word by word, and each word in the slot that accepts its operand.
  have named {slots : List Slot} {operands others : List Operand}
      (accepted : List.Forall₂ (fun slot o => slot.accepts o = true) slots operands)
      (spelled : SpellsAll slots (operands.map Operand.text) others) :
      ∀ o ∈ operands, o.isNamed = true := by
    induction accepted generalizing others with
    | nil => exact nofun
    | cons first rest ih =>
      cases spelled with
      | cons word words => exact List.forall_mem_cons.mpr ⟨isNamed_of_spells first word, ih words⟩
  induction code generalizing number rank made with
  | nil => exact nofun
  | cons i rest ih =>
    obtain ⟨_, line, built⟩ := bind_eq_ok_iff.mp built
    obtain ⟨_, lines, _⟩ := bind_eq_ok_iff.mp built
    obtain ⟨opcode, operands, known, spelled, _⟩ :=
      instruction_eq_ok_iff.mp (mapError_eq_ok_iff.mp line)
    cases (Opcode.ofMnemonic?_mnemonic i.opcode).symm.trans known
    obtain ⟨first, others⟩ := List.forall_mem_cons.mp fits
    refine List.forall_mem_cons.mpr ⟨⟨first, ?_⟩, ih others lines⟩
    exact named (Instruction.misfit?_eq_none_iff.mp first) spelled

/-- Where words stay apart and operands fit, nothing but the program is read from its listing. -/
theorem eq_renumbered_of_worded {p q : Program} (worded : ∀ i ∈ p.instructions, i.IsWorded)
    (fits : ∀ i ∈ p.instructions, i.misfit? = none) (again : assemble p.listing = .ok q) :
    q = p.renumbered := by
  -- Whatever is read is expressible, and then the listing is read as the program.
  obtain ⟨made, built, _⟩ := map_eq_ok_iff.mp ((assemble_of_worded worded).symm.trans again)
  have expressible := expressible_of_listedLines
    (fun i member => fits i (Program.mem_sorted.mp member)) built
  have read := assemble_listing fun i member => expressible i (Program.mem_sorted.mpr member)
  exact Except.ok.inj (again.symm.trans read)

end Source

namespace Document

/--
A document without defects is not changed by listing it, if no name holds blanks or comment marks.

Whatever reads documents, when the listing of one is read again at all, it is read as the program
with its orders renumbered: the same operations with the same operands by ascending order, and one
order after another from one on.
-/
theorem listing_is_faithful {read : String → Option Element} {document : String} {p : Program}
    (loaded : loadWith read document = .ok p)
    (sound : p.defects = []) (plain : ∀ i ∈ p.instructions, ∀ o ∈ i.operands, o.isPlain = true)
    {q : Program} (again : Source.assemble p.listing = .ok q) :
    q = p.renumbered ∧
    q.instructions.map (fun i => (i.opcode, i.operands)) =
      p.sorted.map (fun i => (i.opcode, i.operands)) ∧
    (p.instructions.length < UInt64.size →
      q.instructions.map (fun i => i.order.toNat) = List.range' 1 p.instructions.length) := by
  -- Names without blanks and comment marks make words, and operands fit where no defect is found.
  have worded : ∀ i ∈ p.instructions, i.IsWorded := fun i member =>
    Instruction.isWorded_of_operands fun o operand => Source.isWord_text_of_plain
      (nonempty_of_loadWith loaded i member o operand) (plain i member o operand)
  have fits : ∀ i ∈ p.instructions, i.misfit? = none := by
    intro i member
    by_contra unfit
    obtain ⟨m, misfit⟩ := Option.ne_none_iff_exists'.mp unfit
    have reported : _ ∈ Defect.structural [] p.instructions :=
      Defect.mem_structural_of_misfit member misfit
    rw [(List.append_eq_nil_iff.mp sound).1] at reported
    cases reported
  cases Source.eq_renumbered_of_worded worded fits again
  exact ⟨rfl, Instruction.contents_renumber, Program.orders_renumbered⟩

/-- A document that defines a label. -/
def labelled : String :=
  "<program language=\"IPPcode23\"><instruction order=\"7\" opcode=\"label\">" ++
    "<arg1 type=\"label\">a-b</arg1></instruction></program>"

/-- The label keeps its name, and the instruction becomes the first one. -/
theorem listing_is_faithful_of_labelled :
    ∃ p q, load labelled = .ok p ∧ Source.assemble p.listing = .ok q ∧ q = p.renumbered ∧
      q.instructions = [⟨.label, 1, [.label "a-b"]⟩] := by
  -- Loading and reading again are computed, and so is that nothing is wrong.
  let p : Program := { instructions := [⟨.label, 7, [.label "a-b"]⟩] }
  let q : Program := { instructions := [⟨.label, 1, [.label "a-b"]⟩] }
  have loaded : loadWith Markup.root? labelled = .ok p := by decide +kernel
  have again : Source.assemble p.listing = .ok q := by decide +kernel
  have faithful := listing_is_faithful loaded (by decide +kernel) (by decide +kernel) again
  exact ⟨p, q, loaded, again, faithful.1, rfl⟩

/-- A document that defines a label with a comment mark in its name. -/
def marked : String :=
  "<program language=\"IPPcode23\"><instruction order=\"1\" opcode=\"LABEL\">" ++
    "<arg1 type=\"label\">a#b</arg1></instruction></program>"

/-- The tree of the document. -/
def markedTree : Element :=
  { tag := "program"
    attributes := [("language", "IPPcode23")]
    children := [.element "instruction" [("order", "1"), ("opcode", "LABEL")]
      [.element "arg1" [("type", "label")] [.text "a#b"]]] }

/-- Whatever reader finds its tree, the label is listed with a comment and read as another one. -/
theorem listing_cuts_marked :
    ∃ p q, load marked = .ok p ∧
      (∀ read : String → Option Element, read marked = some markedTree →
        loadWith read marked = .ok p) ∧
      (p.instructions.map Instruction.order).Nodup ∧ p.defects = [] ∧
      Source.assemble p.listing = .ok q ∧ q ≠ p.renumbered ∧
      q.instructions = [⟨.label, 1, [.label "a"]⟩] := by
  -- What is read is computed from the tree, so that the reader does not matter.
  let p : Program := { instructions := [⟨.label, 1, [.label "a#b"]⟩] }
  let q : Program := { instructions := [⟨.label, 1, [.label "a"]⟩] }
  have loaded : load marked = .ok p := by decide +kernel
  have described : program markedTree = .ok p := by decide +kernel
  have again : Source.assemble p.listing = .ok q := by decide +kernel
  exact ⟨p, q, loaded, fun _ found => (loadWith_of_read found).trans described, by decide,
    by decide +kernel, again, by decide +kernel, rfl⟩

end Document

end ThreeAddress
