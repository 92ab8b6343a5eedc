/-! Values carry their type with them, and nil is a type of its own with a single value. -/

namespace ThreeAddress

/-- The types of values. -/
inductive DataType where
  | int
  | bool
  | string
  | nil
  deriving DecidableEq, Repr

/-- A value of the language: a 64-bit integer, a truth value, a text or nil. -/
inductive Value where
  | int (n : Int64)
  | bool (b : Bool)
  | string (s : String)
  | nil
  deriving DecidableEq, Repr

namespace DataType

/-- All types, in the order of their introduction. -/
def all : List DataType :=
  [int, bool, string, nil]

/-- The name of a type in programs. -/
def name : DataType → String
  | int => "int"
  | bool => "bool"
  | string => "string"
  | nil => "nil"

/-- The type of the given name, where case matters. -/
def ofName? (text : String) : Option DataType :=
  all.find? fun t => t.name = text

end DataType

namespace Value

/-- The type of a value. -/
def dataType : Value → DataType
  | int _ => .int
  | bool _ => .bool
  | string _ => .string
  | nil => .nil

/-- The spelling of a truth value. -/
def boolText (b : Bool) : String :=
  if b then "true" else "false"

/-- The text that a program writes for a value, which is empty for nil. -/
def render : Value → String
  | int n => toString n.toInt
  | bool b => boolText b
  | string s => s
  | nil => ""

end Value

end ThreeAddress
