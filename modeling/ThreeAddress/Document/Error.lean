import ThreeAddress.Failure
import ThreeAddress.Language.Argument

/-! A document can be malformed, or be well formed and still not describe a program. -/

namespace ThreeAddress.Document

/-- The name of the language, which the root of a document must give. -/
def language : String := "IPPcode23"

/-- What is wrong with a document. -/
inductive Error where
  /-- The document is not well-formed markup. -/
  | malformed
  /-- The root is not the element of a program in this language. -/
  | wrongRoot (tag : String)
  /-- An element of a program is no instruction. -/
  | unexpectedElement (tag : String)
  /-- An instruction lacks an attribute. -/
  | missingAttribute (name : String)
  /-- The order of an instruction is not a positive number of the allowed form and size. -/
  | invalidOrder (text : String)
  /-- No operation has the mnemonic. -/
  | unknownOperation (order : UInt64) (name : String)
  /-- An element of an instruction is no argument. -/
  | unexpectedArgument (order : UInt64) (tag : String)
  /-- An argument declares no type that exists. -/
  | invalidType (order : UInt64) (tag declared : String)
  /-- The arguments do not make operands. -/
  | invalidArguments (order : UInt64) (error : ArgumentError)
  deriving DecidableEq, Repr

namespace Error

/-- The wording of an error. -/
def message : Error → String
  | malformed => "malformed XML"
  | wrongRoot tag =>
    "root element must be <program language=\"" ++ language ++ "\">, found <" ++ tag ++ ">"
  | unexpectedElement tag => "unexpected element <" ++ tag ++ "> in program"
  | missingAttribute name => "instruction is missing the '" ++ name ++ "' attribute"
  | invalidOrder text => "invalid instruction order '" ++ text ++ "'"
  | unknownOperation order name => s!"order {order}: unknown opcode '{name}'"
  | unexpectedArgument order tag => s!"order {order}: unexpected element <{tag}>"
  | invalidType order tag declared => s!"order {order}: <{tag}> has an invalid type '{declared}'"
  | invalidArguments order error => s!"order {order}: {error.message}"

/-- The class of an error. -/
def failure : Error → Failure
  | malformed => .malformedDocument
  | _ => .invalidStructure

end Error

end ThreeAddress.Document
