import ThreeAddress.Document.Content
import ThreeAddress.Proofs.Language.Placing
import ThreeAddress.Proofs.Source.Grammar

/-!
The grammar of documents, from the texts of arguments and attributes up to the elements that hold
them. Each part describes something, or it has one complaint against it.
-/

namespace ThreeAddress.Document

open Markup (Element)

/-- The texts that denote an operand under a declared type. -/
inductive Denotes : ArgumentType → String → Operand → Prop where
  | literal {t : DataType} {text : String} {value : Value}
      (stands : Source.LiteralText t text value) : Denotes t.declared text (.literal value)
  /-- Any text but the empty one is a label here, and so it is with names of variables. -/
  | label {name : String} (nonempty : name ≠ "") : Denotes .label name (.label name)
  | type (t : DataType) : Denotes .type t.name (.type t)
  | var {x : Variable} (nonempty : x.name ≠ "") : Denotes .var x.text (.var x)

/-- The texts that denote no operand under a declared type, with the complaint. -/
inductive Refused : ArgumentType → String → ArgumentError → Prop where
  | literal {t : DataType} {text : String}
      (meaningless : ∀ value, ¬ Source.LiteralText t text value) :
      Refused t.declared text (Source.refusal text t)
  | label : Refused .label "" .emptyLabel
  | type {text : String} (unknown : ∀ t : DataType, text ≠ t.name) :
      Refused .type text (.invalidType text)
  | unmarked {text : String} (free : '@' ∉ text.toList) :
      Refused .var text (.invalidVariable text)
  | frame {tag name : String} (free : '@' ∉ tag.toList)
      (unknown : ∀ frame : FrameTag, tag ≠ frame.name) :
      Refused .var (tag ++ "@" ++ name) (.unknownFrame tag)
  | nameless (frame : FrameTag) :
      Refused .var (frame.name ++ "@") (.invalidVariable (frame.name ++ "@"))

/-- The texts of orders: decimal digits without a leading zero. -/
def IsOrder (text : String) (n : UInt64) : Prop :=
  text.toList.head? ≠ some '0' ∧ Text.Denotes 10 text.toList n.toNat

/-- The tags of arguments with their positions. -/
inductive ArgumentTag : String → Nat → Prop where
  | first : ArgumentTag "arg1" 1
  | second : ArgumentTag "arg2" 2
  | third : ArgumentTag "arg3" 3

/-- An element is the argument at a position. -/
def IsArgument (position : Nat) (e : Element) : Prop :=
  ArgumentTag e.tag position ∧ ∃ declared : ArgumentType, e.attribute? "type" = some declared.name

/-- The complaint about an element that is no argument, where the tag is looked at first. -/
inductive NoArgument (order : UInt64) (e : Element) : Error → Prop where
  | tag (other : ∀ position, ¬ ArgumentTag e.tag position) :
      NoArgument order e (.unexpectedArgument order e.tag)
  | type {position : Nat} (tag : ArgumentTag e.tag position)
      (unknown : ∀ declared : ArgumentType, e.attribute? "type" ≠ some declared.name) :
      NoArgument order e (.invalidType order e.tag ((e.attribute? "type").getD ""))

/-- An argument holds a text that denotes an operand under its type. -/
def Holds (e : Element) (o : Operand) : Prop :=
  ∃ declared : ArgumentType, e.attribute? "type" = some declared.name ∧ Denotes declared e.text o

/-- An argument holds a text that denotes nothing under its type. -/
def HoldsNothing (e : Element) (complaint : ArgumentError) : Prop :=
  ∃ declared : ArgumentType,
    e.attribute? "type" = some declared.name ∧ Refused declared e.text complaint

/-- An element is an instruction with an order. -/
def IsOrdered (e : Element) (n : UInt64) : Prop :=
  e.tag = "instruction" ∧ ∃ text, e.attribute? "order" = some text ∧ IsOrder text n

/-- An element is an instruction with an order and an operation. -/
def IsHead (e : Element) (n : UInt64) (opcode : Opcode) : Prop :=
  IsOrdered e n ∧ ∃ word, e.attribute? "opcode" = some word ∧ Source.Names word opcode

/-- An element holds operands: put into place, its elements are arguments that hold them. -/
def HoldsOperands (e : Element) (operands : List Operand) : Prop :=
  ∃ placed : List Element, placed.Perm e.elements ∧
    List.Forall₂ IsArgument (List.range' 1 placed.length) placed ∧
    List.Forall₂ Holds placed operands

/--
The complaint about an element that holds no operands.

It is about the first element that is no argument, the lowest position out of place, or the first
text in place that denotes nothing. Each of these presupposes that nothing is wrong before.
-/
inductive NoOperands (n : UInt64) (e : Element) : Error → Prop where
  | argument {complaint : Error}
      (first : FirstWrong (fun a => ∃ position, IsArgument position a) (NoArgument n) e.elements
        complaint) : NoOperands n e complaint
  | position {positions : List Nat} {position : Nat}
      (arguments : List.Forall₂ IsArgument positions e.elements)
      (wrong : Misplaced positions position) :
      NoOperands n e (.invalidArguments n (.invalidPosition position))
  | text {placed : List Element} {complaint : ArgumentError} (same : placed.Perm e.elements)
      (arguments : List.Forall₂ IsArgument (List.range' 1 placed.length) placed)
      (first : FirstWrong (fun a => ∃ o, Holds a o) HoldsNothing placed complaint) :
      NoOperands n e (.invalidArguments n complaint)

/-- An element describes an instruction by its order, its operation and what it holds. -/
def DescribesInstruction (e : Element) (i : Instruction) : Prop :=
  IsHead e i.order i.opcode ∧ HoldsOperands e i.operands

/--
The complaint about an element that describes no instruction.

It is about the tag, the order, the operation or the operands. Each of these presupposes that
nothing is wrong before.
-/
inductive NoInstruction (e : Element) : Error → Prop where
  | tag (other : e.tag ≠ "instruction") : NoInstruction e (.unexpectedElement e.tag)
  | unordered (tag : e.tag = "instruction") (missing : e.attribute? "order" = none) :
      NoInstruction e (.missingAttribute "order")
  | order {text : String} (tag : e.tag = "instruction") (given : e.attribute? "order" = some text)
      (wrong : ∀ n, ¬ IsOrder text n) : NoInstruction e (.invalidOrder text)
  | unnamed {n : UInt64} (ordered : IsOrdered e n) (missing : e.attribute? "opcode" = none) :
      NoInstruction e (.missingAttribute "opcode")
  | opcode {n : UInt64} {word : String} (ordered : IsOrdered e n)
      (given : e.attribute? "opcode" = some word) (unknown : ∀ opcode, ¬ Source.Names word opcode) :
      NoInstruction e (.unknownOperation n word)
  | operands {n : UInt64} {opcode : Opcode} {complaint : Error} (head : IsHead e n opcode)
      (wrong : NoOperands n e complaint) : NoInstruction e complaint

/-- A root describes a program: its elements are the instructions, one after another. -/
def DescribesProgram (root : Element) (p : Program) : Prop :=
  root.tag = "program" ∧ root.attribute? "language" = some language ∧
    List.Forall₂ DescribesInstruction root.elements p.instructions

/-- The complaint about a root that describes no program, which is the first one to be found. -/
inductive NoProgram (root : Element) : Error → Prop where
  | root (other : ¬ (root.tag = "program" ∧ root.attribute? "language" = some language)) :
      NoProgram root (.wrongRoot root.tag)
  | instruction {complaint : Error} (tag : root.tag = "program")
      (given : root.attribute? "language" = some language)
      (first : FirstWrong (fun e => ∃ i, DescribesInstruction e i) NoInstruction root.elements
        complaint) : NoProgram root complaint

section Texts

private theorem ofName?_eq_none {α : Type} {found : String → Option α} {name : α → String}
    (known : ∀ {text a}, found text = some a ↔ text = name a) {text : String}
    (unknown : ∀ a, text ≠ name a) : found text = none :=
  -- Whatever were found would have its own name.
  Option.eq_none_iff_forall_ne_some.mpr fun a same => unknown a (known.mp same)

private theorem ofText_of_denotes {declared : ArgumentType} {text : String} {o : Operand}
    (denotes : Denotes declared text o) : Operand.ofText declared text = .ok o := by
  -- Each type has a decoder of its own.
  cases denotes with
  | literal stands => exact Source.ofText_eq_ok_iff.mpr ⟨_, stands, rfl⟩
  | label nonempty => exact if_neg nonempty
  | type t => simp [Operand.ofText, DataType.ofName?_name]
  | var nonempty =>
    rw [Operand.ofText, Variable.ofText_text nonempty]
    rfl

private theorem ofText_of_refused {declared : ArgumentType} {text : String}
    {complaint : ArgumentError} (refused : Refused declared text complaint) :
    Operand.ofText declared text = .error complaint := by
  cases refused with
  | literal meaningless => exact Source.ofText_eq_error_iff.mpr ⟨meaningless, rfl⟩
  | label => rfl
  | type unknown =>
    rw [Operand.ofText, ofName?_eq_none DataType.ofName?_eq_some_iff unknown]
  | unmarked free =>
    rw [Operand.ofText, Variable.ofText, splitMark_eq_none_iff.mpr free]
    rfl
  | @frame tag name free unknown =>
    have parts : splitMark (tag ++ "@" ++ name).toList = some (tag.toList, name.toList) := by
      simp [splitMark_append free]
    have strange := ofName?_eq_none FrameTag.ofName?_eq_some_iff unknown
    simp only [Operand.ofText, Variable.ofText, parts, String.ofList_toList, strange, Except.map]
  | nameless frame =>
    -- A frame without a name is known before the name is missed.
    have free : '@' ∉ frame.name.toList := by
      cases frame <;> decide
    have parts : splitMark (frame.name ++ "@").toList = some (frame.name.toList, []) := by
      simp [splitMark_append free]
    simp only [Operand.ofText, Variable.ofText, parts, String.ofList_toList,
      FrameTag.ofName?_name, List.isEmpty_nil, if_true, Except.map]

private theorem variable_or_refused (text : String) :
    (∃ o, Denotes .var text o) ∨ ∃ complaint, Refused .var text complaint := by
  -- The first at sign ends the tag, and whatever stands behind it is the name.
  by_cases mark : '@' ∈ text.toList
  · obtain ⟨tag, name, whole, free⟩ := List.eq_append_cons_of_mem mark
    by_cases known : ∃ frame : FrameTag, String.ofList tag = frame.name
    · obtain ⟨frame, spelled⟩ := known
      have tagged : tag = frame.name.toList := by rw [← spelled, String.toList_ofList]
      cases name with
      | nil =>
        have joined : text = frame.name ++ "@" := by
          rw [← String.toList_inj, whole, tagged]
          simp
        rw [joined]
        exact .inr ⟨_, .nameless frame⟩
      | cons c rest =>
        let x : Variable := { frame, name := String.ofList (c :: rest) }
        have joined : text = x.text := by
          rw [← String.toList_inj, whole, tagged]
          simp [x, Variable.text]
        rw [joined]
        exact .inl ⟨_, .var (by simp [x])⟩
    · have joined : text = String.ofList tag ++ "@" ++ String.ofList name := by
        rw [← String.toList_inj, whole]
        simp
      rw [joined]
      refine .inr ⟨_, .frame ?_ fun frame spelled => known ⟨frame, spelled⟩⟩
      rwa [String.toList_ofList]
  · exact .inr ⟨_, .unmarked mark⟩

private theorem denotes_or_refused (declared : ArgumentType) (text : String) :
    (∃ o, Denotes declared text o) ∨ ∃ complaint, Refused declared text complaint := by
  -- Each type asks one question about the text, and both answers are covered.
  have literal (t : DataType) : (∃ o, Denotes t.declared text o) ∨
      ∃ complaint, Refused t.declared text complaint := by
    by_cases meaning : ∃ value, Source.LiteralText t text value
    · obtain ⟨value, stands⟩ := meaning
      exact .inl ⟨_, .literal stands⟩
    · exact .inr ⟨_, .literal fun value stands => meaning ⟨value, stands⟩⟩
  cases declared with
  | int => exact literal .int
  | bool => exact literal .bool
  | string => exact literal .string
  | nil => exact literal .nil
  | label =>
    by_cases empty : text = ""
    · rw [empty]
      exact .inr ⟨_, .label⟩
    · exact .inl ⟨_, .label empty⟩
  | type =>
    by_cases known : ∃ t : DataType, text = t.name
    · obtain ⟨t, rfl⟩ := known
      exact .inl ⟨_, .type t⟩
    · exact .inr ⟨_, .type fun t spelled => known ⟨t, spelled⟩⟩
  | var => exact variable_or_refused text

/-- A text is decoded to the operand that it denotes, or refused for what is wrong with it. -/
theorem ofText_endsAs (declared : ArgumentType) (text : String) :
    EndsAs (Operand.ofText declared text) (Denotes declared text) (Refused declared text) :=
  .of_total (fun _ => ofText_of_denotes) (fun _ => ofText_of_refused)
    (denotes_or_refused declared text)

/-- An order is read from exactly the texts of that order. -/
theorem readOrder_eq_some_iff {text : String} {n : UInt64} :
    Text.readOrder text.toList = some n ↔ IsOrder text n := by
  -- Only the first digit is looked at by itself, and the number has to be small enough.
  unfold IsOrder
  cases text.toList with
  | nil => simp [Text.readOrder, Text.Denotes]
  | cons first rest =>
    rw [Text.readOrder, List.head?_cons, ne_eq, Option.some.injEq]
    by_cases zero : first = '0'
    · simp [zero]
    · rw [if_neg zero, Option.bind_eq_some_iff, ← Text.readNatural_eq_some_iff (by decide)]
      constructor
      · intro found
        obtain ⟨value, read, inRange⟩ := found
        by_cases small : value < UInt64.size
        · rw [if_pos small, Option.some.injEq] at inRange
          rw [← inRange, UInt64.toNat_ofNat_of_lt' small]
          exact ⟨zero, read⟩
        · rw [if_neg small] at inRange
          cases inRange
      · intro found
        exact ⟨n.toNat, found.2, by rw [if_pos n.toNat_lt_size, UInt64.ofNat_toNat]⟩

end Texts

end ThreeAddress.Document
