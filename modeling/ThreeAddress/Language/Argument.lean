import ThreeAddress.Failure
import ThreeAddress.Language.Operand
import ThreeAddress.Text.Numeral

/-!
An argument is an operand still in writing: a declared type, a text and a position. Its text is
decoded here and nowhere else.
-/

namespace ThreeAddress

/-- The declared types of arguments. -/
inductive ArgumentType where
  | int
  | bool
  | string
  | nil
  | label
  | type
  | var
  deriving DecidableEq, Repr

namespace ArgumentType

/-- All argument types, in the order of their introduction. -/
def all : List ArgumentType :=
  [int, bool, string, nil, label, type, var]

/-- The name of an argument type. -/
def name : ArgumentType → String
  | int => "int"
  | bool => "bool"
  | string => "string"
  | nil => "nil"
  | label => "label"
  | type => "type"
  | var => "var"

/-- The argument type of the given name, where case matters. -/
def ofName? (text : String) : Option ArgumentType :=
  all.find? fun t => t.name = text

/-- The argument types whose texts are literals. -/
def isLiteral : ArgumentType → Bool
  | int | bool | string | nil => true
  | label | type | var => false

end ArgumentType

/-- An operand in writing, to be placed by its position, which counts from one. -/
structure Argument where
  type : ArgumentType
  text : String
  position : Nat
  deriving DecidableEq, Repr

/-- The reasons why arguments do not make operands. -/
inductive ArgumentError where
  | invalidInt (text : String)
  | invalidBool (text : String)
  | invalidNil (text : String)
  | invalidString (text : String)
  | emptyLabel
  | invalidType (text : String)
  | invalidVariable (text : String)
  | unknownFrame (tag : String)
  | invalidPosition (position : Nat)
  deriving DecidableEq, Repr

/-- The wording of an argument error. -/
def ArgumentError.message : ArgumentError → String
  | invalidInt text => "invalid int literal '" ++ text ++ "'"
  | invalidBool text => "invalid bool literal '" ++ text ++ "'"
  | invalidNil text => "invalid nil literal '" ++ text ++ "'"
  | invalidString text => "invalid escape sequence in string '" ++ text ++ "'"
  | emptyLabel => "empty label"
  | invalidType text => "invalid type name '" ++ text ++ "'"
  | invalidVariable text => "invalid variable reference '" ++ text ++ "'"
  | unknownFrame tag => "unknown frame '" ++ tag ++ "'"
  | invalidPosition position => "argument position " ++ toString position ++ " is invalid"

/-- The class of an argument error, where no line of source text is to blame. -/
def ArgumentError.failure (_ : ArgumentError) : Failure :=
  .invalidStructure

/-- Splits a text at its first at sign, which belongs to neither part. -/
def splitMark : List Char → Option (List Char × List Char)
  | [] => none
  | c :: rest =>
    if c = '@' then some ([], rest)
    else (splitMark rest).map fun (before, after) => (c :: before, after)

/-- Reads a frame tag and a name that is not empty, separated by the first at sign. -/
def Variable.ofText (text : String) : Except ArgumentError Variable :=
  match splitMark text.toList with
  | none => .error (.invalidVariable text)
  | some (tag, name) =>
    -- An unknown frame is reported even where the name is empty.
    match FrameTag.ofName? (String.ofList tag) with
    | none => .error (.unknownFrame (String.ofList tag))
    | some frame =>
      if name.isEmpty then .error (.invalidVariable text)
      else .ok { frame, name := String.ofList name }

/-- Decodes an escaped text. -/
def decodeString (text : String) : Except ArgumentError String :=
  match Text.unescape text.toList with
  | none => .error (.invalidString text)
  | some content => .ok (String.ofList content)

/-- The operand that a text denotes under a declared type. -/
def Operand.ofText (declared : ArgumentType) (text : String) : Except ArgumentError Operand :=
  match declared with
  | .int =>
    match Text.readIntLiteral text.toList with
    | none => .error (.invalidInt text)
    | some n => .ok (.literal (.int n))
  | .bool =>
    if text = "true" then .ok (.literal (.bool true))
    else if text = "false" then .ok (.literal (.bool false))
    else .error (.invalidBool text)
  | .nil => if text = "nil" then .ok (.literal .nil) else .error (.invalidNil text)
  | .string => (decodeString text).map fun content => .literal (.string content)
  | .label => if text = "" then .error .emptyLabel else .ok (.label text)
  | .type =>
    match DataType.ofName? text with
    | none => .error (.invalidType text)
    | some t => .ok (.type t)
  | .var => (Variable.ofText text).map .var

/-- The operand that an argument denotes. -/
def Operand.ofArgument (argument : Argument) : Except ArgumentError Operand :=
  Operand.ofText argument.type argument.text

end ThreeAddress
