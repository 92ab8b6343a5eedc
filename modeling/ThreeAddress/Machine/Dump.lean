import ThreeAddress.Machine.State
import ThreeAddress.Text.Quoted

/-! A dump shows the state of a machine in eight lines. -/

namespace ThreeAddress

/-- A value as dumps show it: like a literal, but with strings in quotes. -/
def Value.dumped : Value → String
  | .string s => "string@" ++ String.ofList (Text.quote s.toList)
  | .nil => "nil@nil"
  | other => other.dataType.name ++ "@" ++ other.render

/-- A frame as dumps show it: its variables by name, in braces. -/
def Frame.dumped (f : Frame) : String :=
  let slots := f.slots.map fun (name, held) =>
    match held with
    | none => name ++ "=<uninitialized>"
    | some value => name ++ "=" ++ value.dumped
  "\x7b" ++ String.intercalate ", " slots ++ "\x7d"

/-- A list as dumps show it, in brackets. -/
def dumpedList (items : List String) : String :=
  "[" ++ String.intercalate ", " items ++ "]"

/-- The line of the topmost local frame. -/
def Frames.dumpedLocals (s : Frames) : String :=
  match s.locals with
  | [] => "LF: undefined"
  | f :: _ => s!"LF (depth {s.locals.length}): {f.dumped}"

/-- The line of the temporary frame. -/
def Frames.dumpedTemporary (s : Frames) : String :=
  match s.temporary with
  | none => "TF: undefined"
  | some f => "TF: " ++ f.dumped

/-- The name of the operation that was completed last. -/
def Machine.lastName (m : Machine) : String :=
  match m.last with
  | none => "none"
  | some opcode => opcode.mnemonic

/-- The state of a machine that has fetched the instruction of the given order. -/
def Machine.dump (m : Machine) (order : UInt64) : String :=
  let lines :=
    [s!"BREAK at position {m.pc - 1} (order {order})",
      "last executed: " ++ m.lastName,
      s!"executed instructions: {m.executed}",
      "GF: " ++ m.frames.globals.dumped,
      m.frames.dumpedLocals,
      m.frames.dumpedTemporary,
      "data stack: " ++ dumpedList (m.dataStack.reverse.map Value.dumped),
      "call stack: " ++ dumpedList (m.callStack.reverse.map fun position => toString position)]
  String.join (lines.map fun line => line ++ "\n")

end ThreeAddress
