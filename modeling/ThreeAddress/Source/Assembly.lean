import ThreeAddress.Language.Program
import ThreeAddress.Source.Error
import ThreeAddress.Source.Line

/-! Source text is assembled line by line, and the rank of a line becomes its order. -/

namespace ThreeAddress.Source

/-- The characters that may begin a name: ASCII letters and some marks. -/
def isNameStart (c : Char) : Bool :=
  c.isAlpha || "_-$&%*!?".toList.contains c

/-- The characters of names: those that may begin one, and ASCII digits. -/
def isNameChar (c : Char) : Bool :=
  isNameStart c || c.isDigit

/-- Names of labels and variables in source text. -/
def isName : List Char → Bool
  | [] => false
  | c :: rest => isNameStart c && rest.all isNameChar

/-- The words that address a variable: a frame tag, an at sign and a name. -/
def isVariable (word : String) : Bool :=
  match splitMark word.toList with
  | none => false
  | some (tag, name) => (FrameTag.ofName? (String.ofList tag)).isSome && isName name

/-- The declared type and the text of a literal, which are separated by the first at sign. -/
def literal? (word : String) : Option (ArgumentType × String) :=
  match splitMark word.toList with
  | none => none
  | some (declared, text) =>
    match ArgumentType.ofName? (String.ofList declared) with
    | none => none
    | some known => if known.isLiteral then some (known, String.ofList text) else none

/-- The declared type and the text of a word, if it has the shape of its slot. -/
def shaped? (slot : Slot) (word : String) : Option (ArgumentType × String) :=
  match slot with
  | .var => if isVariable word then some (.var, word) else none
  | .label => if isName word.toList then some (.label, word) else none
  | .type => if (DataType.ofName? word).isSome then some (.type, word) else none
  -- A word in the shape of a variable is never taken for a literal.
  | .symbol => if isVariable word then some (.var, word) else literal? word

/-- The arguments that words make in the slots from a position on. -/
def shapedArguments (position : Nat) : List Slot → List String → Except Problem (List Argument)
  | slot :: slots, word :: words =>
    match shaped? slot word with
    | none => .error (.shape word slot)
    | some (declared, text) => do
      let rest ← shapedArguments (position + 1) slots words
      return { type := declared, text, position } :: rest
  | _, _ => .ok []

/-- The instruction of the given order that the words of a line spell. -/
def instruction (order : UInt64) : List String → Except Problem Instruction
  | [] => .error (.unknownOperation "")
  | mnemonic :: words =>
    match Opcode.ofMnemonic? mnemonic with
    | none => .error (.unknownOperation mnemonic)
    | some opcode =>
      -- The number of words is checked before their shapes, and these before what they denote.
      if opcode.signature.length = words.length then do
        let arguments ← shapedArguments 1 opcode.signature words
        (Instruction.ofArguments opcode order arguments).mapError .invalid
      else .error (.operandCount opcode opcode.signature.length words.length)

/-- The instructions of the lines after the header, where `rank` is the order of the first. -/
def instructions (rank : Nat) : List Line → Except Error (List Instruction)
  | [] => .ok []
  | line :: rest => do
    let first ← (instruction (UInt64.ofNat rank) line.words).mapError fun problem =>
      { line := line.number, problem }
    let others ← instructions (rank + 1) rest
    return first :: others

/-- The header is a line of one word, in which the case of ASCII letters does not matter. -/
def isHeader (words : List String) : Bool :=
  match words with
  | [word] => word.toList.map Char.toLower = headerText.toList.map Char.toLower
  | _ => false

/-- Assembles a text: a header and an instruction on each further line that has words. -/
def assemble (text : String) : Except Error Program :=
  let lines := cutLines text.toList
  match numberLines 1 lines with
  -- Without any word the header is missed at the end of the text.
  | [] => .error { line := max lines.length 1, problem := .header }
  | first :: rest =>
    if isHeader first.words then (instructions 1 rest).map fun is => { instructions := is }
    else .error { line := first.number, problem := .header }

end ThreeAddress.Source
