import ThreeAddress.Language.Value
import ThreeAddress.Text.Blank
import ThreeAddress.Text.Numeral

/-! Input comes as lines of bytes, and each line is converted to the type that is asked for. -/

namespace ThreeAddress.Input

/-- The byte that ends a line. -/
def lineFeed : UInt8 := 10

/-- The byte that may stand before the end of a line without belonging to it. -/
def carriageReturn : UInt8 := 13

/-- The first line of the input with its end, and the rest of the input. -/
def cutLine : List UInt8 → List UInt8 × List UInt8
  | [] => ([], [])
  | byte :: rest =>
    if byte = lineFeed then ([byte], rest)
    else
      let (line, after) := cutLine rest
      (byte :: line, after)

/-- A line without its end, which is a line feed and at most one carriage return before it. -/
def stripEnd (line : List UInt8) : List UInt8 :=
  if line.getLast? = some lineFeed then
    let content := line.dropLast
    if content.getLast? = some carriageReturn then content.dropLast else content
  else line

/-- The text of a line, unless its bytes do not spell one. -/
def lineText? (line : List UInt8) : Option String :=
  String.fromUTF8? ⟨(stripEnd line).toArray⟩

/-- The text of the first line, and the rest; at the end of the input there is no text. -/
def next (input : List UInt8) : Option String × List UInt8 :=
  match input with
  | [] => (none, [])
  | _ =>
    let (line, rest) := cutLine input
    (lineText? line, rest)

/-- The word that stands for truth, in any case of its letters. -/
def isTrue (text : List Char) : Bool :=
  text.map Char.toLower = "true".toList

/-- The value of a line under a type; what does not convert is nil. -/
def convert (t : DataType) (line : String) : Value :=
  match t with
  | .int =>
    match Text.readInt64 (Text.trim line.toList) with
    | none => .nil
    | some n => .int n
  -- An empty line is no truth value, but any other text is one.
  | .bool => if line = "" then .nil else .bool (isTrue (Text.trim line.toList))
  | .string => .string line
  | .nil => .nil

/-- The value that is read under a type, which is nil where there is no text. -/
def value (t : DataType) : Option String → Value
  | none => .nil
  | some line => convert t line

end ThreeAddress.Input
