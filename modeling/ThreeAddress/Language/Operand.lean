import ThreeAddress.Language.Value
import ThreeAddress.Text.Escape

/-! Operands are literals, variables of a frame, labels and type names. -/

namespace ThreeAddress

/-- The frames that a variable can belong to. -/
inductive FrameTag where
  /-- The frame that exists throughout a run. -/
  | globalFrame
  /-- The topmost of the suspended frames. -/
  | localFrame
  /-- The frame under construction. -/
  | temporaryFrame
  deriving DecidableEq, Repr

namespace FrameTag

/-- All frames, in the order of their introduction. -/
def all : List FrameTag :=
  [globalFrame, localFrame, temporaryFrame]

/-- The tag that addresses a frame in programs. -/
def name : FrameTag → String
  | globalFrame => "GF"
  | localFrame => "LF"
  | temporaryFrame => "TF"

/-- The frame with the given tag, where case matters. -/
def ofName? (text : String) : Option FrameTag :=
  all.find? fun tag => tag.name = text

end FrameTag

/-- A variable: a name within a frame. -/
structure Variable where
  frame : FrameTag
  name : String
  deriving DecidableEq, Repr

/-- The spelling of a variable in programs. -/
def Variable.text (x : Variable) : String :=
  x.frame.name ++ "@" ++ x.name

/-- An operand of an instruction. -/
inductive Operand where
  | literal (value : Value)
  | var (x : Variable)
  | label (name : String)
  | type (type : DataType)
  deriving DecidableEq, Repr

namespace Operand

/-- A symbol stands for a value: it is a literal or a variable. -/
def isSymbol : Operand → Bool
  | literal _ => true
  | var _ => true
  | _ => false

/-- The canonical spelling of a value as a literal: its type, a mark and its text. -/
def literalText (value : Value) : String :=
  let content := match value with
    | .string s => String.ofList (Text.escape s.toList)
    | .nil => "nil"
    | other => other.render
  value.dataType.name ++ "@" ++ content

/-- The canonical spelling of an operand in programs. -/
def text : Operand → String
  | literal value => literalText value
  | var x => x.text
  | label name => name
  | type t => t.name

end Operand

end ThreeAddress
