import ThreeAddress.Document.Error
import ThreeAddress.Language.Program
import ThreeAddress.Markup.Tree

/-!
A document describes a program by its tree alone: the root holds an element for each instruction,
which holds an element for each argument. What stands between the elements does not matter.
-/

namespace ThreeAddress.Document

open Markup (Element)

/-- The position of the argument that an element with the given tag describes. -/
def position? (tag : String) : Option Nat :=
  if tag = "arg1" then some 1
  else if tag = "arg2" then some 2
  else if tag = "arg3" then some 3
  else none

/-- The argument that an element describes. -/
def argument (order : UInt64) (e : Element) : Except Error Argument :=
  match position? e.tag with
  | none => .error (.unexpectedArgument order e.tag)
  | some position =>
    -- A type that is missing is as wrong as an empty one.
    let declared := (e.attribute? "type").getD ""
    match ArgumentType.ofName? declared with
    | none => .error (.invalidType order e.tag declared)
    | some known => .ok { type := known, text := e.text, position }

/-- An attribute that an instruction must have. -/
def required (e : Element) (name : String) : Except Error String :=
  match e.attribute? name with
  | none => .error (.missingAttribute name)
  | some text => .ok text

/-- The order that the text of an attribute denotes. -/
def order (text : String) : Except Error UInt64 :=
  match Text.readOrder text.toList with
  | none => .error (.invalidOrder text)
  | some n => .ok n

/-- The operation that the text of an attribute names. -/
def opcode (order : UInt64) (text : String) : Except Error Opcode :=
  match Opcode.ofMnemonic? text with
  | none => .error (.unknownOperation order text)
  | some found => .ok found

/-- The instruction that an element describes. -/
def instruction (e : Element) : Except Error Instruction := do
  if e.tag ≠ "instruction" then .error (.unexpectedElement e.tag) else
    -- The order comes first, because later errors name it.
    let n ← order (← required e "order")
    let found ← opcode n (← required e "opcode")
    let arguments ← e.elements.mapM (argument n)
    (Instruction.ofArguments found n arguments).mapError (.invalidArguments n)

/-- The program that the tree of a document describes. -/
def program (root : Element) : Except Error Program :=
  if root.tag = "program" ∧ root.attribute? "language" = some language then do
    return { instructions := ← root.elements.mapM instruction }
  else .error (.wrongRoot root.tag)

/-- Loads the program that a document describes, where `read` finds the roots of documents. -/
def loadWith (read : String → Option Element) (text : String) : Except Error Program :=
  match read text with
  | none => .error .malformed
  | some root => program root

/-- Loads the program that a document describes. -/
def load (text : String) : Except Error Program :=
  loadWith Markup.root? text

end ThreeAddress.Document
