import ThreeAddress.Machine.Fault

/-! What the computing operations make of the values of their operands. -/

namespace ThreeAddress

/-- Division rounded towards negative infinity, which wraps where the quotient is out of range. -/
def floorDiv (a b : Int64) : Int64 :=
  let quotient := a / b
  -- The machine rounds towards zero, which is one too high for an inexact negative quotient.
  if a % b ≠ 0 ∧ decide (a < 0) ≠ decide (b < 0) then quotient - 1 else quotient

/-- The character of a code point, unless the number names none. -/
def charOf? (code : Int64) : Option Char :=
  if 0 ≤ code.toInt ∧ code.toInt.toNat.isValidChar then some (Char.ofNat code.toInt.toNat)
  else none

/-- The character at an index, which counts characters from zero. -/
def charAt (s : String) (index : Int64) : Except Cause Char :=
  let failed : Except Cause Char := .error (.stringIndex index s.length)
  -- Indices below zero do not count from the end.
  if index.toInt < 0 then failed
  else
    match s.toList[index.toInt.toNat]? with
    | none => failed
    | some c => .ok c

namespace Value

/-- Whether one value is below another, for two values of one type other than nil. -/
def below? : Value → Value → Option Bool
  | int a, int b => some (decide (a < b))
  | bool a, bool b => some (!a && b)
  | string a, string b => some (decide (a < b))
  | _, _ => none

/-- Whether two values are equal, if they have one type or one of them is nil. -/
def equals? (a b : Value) : Option Bool :=
  if a.dataType = .nil ∨ b.dataType = .nil ∨ a.dataType = b.dataType then some (decide (a = b))
  else none

end Value

namespace Opcode

/-- The answer of a test, which fails where the types do not allow it. -/
def answer (opcode : Opcode) : Option Bool → Except Cause Value
  | none => .error (.wrongTypes opcode)
  | some b => .ok (.bool b)

/-- Applies a function to two integers. -/
def onInts (opcode : Opcode) (f : Int64 → Int64 → Except Cause Value) :
    Value → Value → Except Cause Value
  | .int a, .int b => f a b
  | _, _ => .error (.wrongTypes opcode)

/-- Applies a function to two truth values. -/
def onBools (opcode : Opcode) (f : Bool → Bool → Bool) : Value → Value → Except Cause Value
  | .bool a, .bool b => .ok (.bool (f a b))
  | _, _ => .error (.wrongTypes opcode)

/-- Applies a function to a text and an index into it. -/
def onIndexed (opcode : Opcode) (f : Char → Value) : Value → Value → Except Cause Value
  | .string s, .int index => (charAt s index).map f
  | _, _ => .error (.wrongTypes opcode)

/-- Joins two texts. -/
def joined (opcode : Opcode) : Value → Value → Except Cause Value
  | .string a, .string b => .ok (.string (a ++ b))
  | _, _ => .error (.wrongTypes opcode)

/-- The result of an operation with two sources. -/
def combine (opcode : Opcode) (a b : Value) : Except Cause Value :=
  match opcode with
  | add => opcode.onInts (fun m n => .ok (.int (m + n))) a b
  | sub => opcode.onInts (fun m n => .ok (.int (m - n))) a b
  | mul => opcode.onInts (fun m n => .ok (.int (m * n))) a b
  | idiv =>
    opcode.onInts
      (fun m n => if n = 0 then .error .divisionByZero else .ok (.int (floorDiv m n))) a b
  | lt => opcode.answer (a.below? b)
  | gt => opcode.answer (b.below? a)
  | eq => opcode.answer (a.equals? b)
  | and => opcode.onBools (· && ·) a b
  | or => opcode.onBools (· || ·) a b
  | concat => opcode.joined a b
  | getChar => opcode.onIndexed (fun c => .string (String.singleton c)) a b
  | stri2int => opcode.onIndexed (fun c => .int (Int64.ofNat c.toNat)) a b
  | _ => .error (.wrongTypes opcode)

/-- The result of an operation with one source. -/
def transform (opcode : Opcode) (a : Value) : Except Cause Value :=
  match opcode, a with
  | not, .bool b => .ok (.bool (!b))
  | int2char, .int code =>
    match charOf? code with
    | none => .error (.codePoint code)
    | some c => .ok (.string (String.singleton c))
  | strlen, .string s => .ok (.int (Int64.ofNat s.length))
  | _, _ => .error (.wrongTypes opcode)

end Opcode

/-- A text with its character at an index replaced by the first character of another text. -/
def replaceChar : Value → Value → Value → Except Cause Value
  | .string s, .int index, .string replacement => do
    -- The index is checked even if there is nothing to put there.
    let _ ← charAt s index
    match replacement.toList with
    | [] => .error .emptyReplacement
    | c :: _ => return .string (String.ofList (s.toList.set index.toInt.toNat c))
  | _, _, _ => .error (.wrongTypes .setChar)

end ThreeAddress
