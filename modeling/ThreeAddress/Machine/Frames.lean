import ThreeAddress.Failure
import ThreeAddress.Language.Operand

/-!
Variables live in frames. One frame is global, one may be under construction, and the others are
suspended in a stack, of which only the topmost can be addressed.
-/

namespace ThreeAddress

/-- A frame lists its variables by name, each with its value if it was ever assigned. -/
structure Frame where
  slots : List (String × Option Value)
  deriving DecidableEq, Repr

namespace Frame

/-- The frame without variables. -/
def empty : Frame :=
  ⟨[]⟩

/-- What a frame holds under a name, if the name is declared. -/
def slot? (f : Frame) (name : String) : Option (Option Value) :=
  f.slots.lookup name

/-- Puts an unassigned name before the first greater one. -/
def insertName (name : String) : List (String × Option Value) → List (String × Option Value)
  | [] => [(name, none)]
  | (other, held) :: rest =>
    if name < other then (name, none) :: (other, held) :: rest
    else (other, held) :: insertName name rest

/-- A frame with one more name, which has no value yet. -/
def declare (f : Frame) (name : String) : Frame :=
  ⟨insertName name f.slots⟩

/-- A frame in which a declared name holds a value. -/
def assign (f : Frame) (name : String) (value : Value) : Frame :=
  ⟨f.slots.map fun (other, held) => (other, if other = name then some value else held)⟩

end Frame

/-- The reasons why a frame operation is refused. -/
inductive FrameError where
  | missing (frame : FrameTag)
  | undeclared (x : Variable)
  | redeclared (x : Variable)
  | unassigned (x : Variable)
  deriving DecidableEq, Repr

namespace FrameError

/-- The wording of a frame error, without the place where it arose. -/
def message : FrameError → String
  | missing frame => "frame " ++ frame.name ++ " does not exist"
  | undeclared x => "undefined variable " ++ x.text
  | redeclared x => "variable " ++ x.text ++ " redefined"
  | unassigned x => "variable " ++ x.text ++ " read before assignment"

/-- The class of a frame error. -/
def failure : FrameError → Failure
  | missing _ => .missingFrame
  | undeclared _ => .undeclaredVariable
  | redeclared _ => .invalidMeaning
  | unassigned _ => .missingValue

end FrameError

/-- All frames of a machine, where the suspended ones are listed from the top. -/
structure Frames where
  globals : Frame
  temporary : Option Frame
  locals : List Frame
  deriving DecidableEq, Repr

namespace Frames

/-- The frames at the start: an empty global one and no other. -/
def initial : Frames :=
  { globals := .empty, temporary := none, locals := [] }

/-- Begins a new temporary frame, whatever becomes of the old one. -/
def create (s : Frames) : Frames :=
  { s with temporary := some .empty }

/-- Suspends the temporary frame on top of the local ones. -/
def push (s : Frames) : Except FrameError Frames :=
  match s.temporary with
  | none => .error (.missing .temporaryFrame)
  | some f => .ok { s with temporary := none, locals := f :: s.locals }

/-- Turns the topmost local frame back into the temporary one. -/
def pop (s : Frames) : Except FrameError Frames :=
  match s.locals with
  | [] => .error (.missing .localFrame)
  | f :: rest => .ok { s with temporary := some f, locals := rest }

/-- The frame that a tag addresses. -/
def frame (s : Frames) : FrameTag → Except FrameError Frame
  | .globalFrame => .ok s.globals
  | .localFrame =>
    match s.locals with
    | [] => .error (.missing .localFrame)
    | f :: _ => .ok f
  | .temporaryFrame =>
    match s.temporary with
    | none => .error (.missing .temporaryFrame)
    | some f => .ok f

/-- Puts a frame in the place of the one that a tag addresses. -/
def replace (s : Frames) (f : Frame) : FrameTag → Frames
  | .globalFrame => { s with globals := f }
  | .localFrame => { s with locals := f :: s.locals.tail }
  | .temporaryFrame => { s with temporary := some f }

/-- What the slot of a declared variable holds. -/
def slot (s : Frames) (x : Variable) : Except FrameError (Option Value) := do
  let f ← s.frame x.frame
  match f.slot? x.name with
  | none => .error (.undeclared x)
  | some held => .ok held

/-- Declares a variable, which then has no value. -/
def declare (s : Frames) (x : Variable) : Except FrameError Frames := do
  let f ← s.frame x.frame
  match f.slot? x.name with
  | some _ => .error (.redeclared x)
  | none => .ok (s.replace (f.declare x.name) x.frame)

/-- Assigns a value to a declared variable. -/
def assign (s : Frames) (x : Variable) (value : Value) : Except FrameError Frames := do
  let f ← s.frame x.frame
  match f.slot? x.name with
  | none => .error (.undeclared x)
  | some _ => .ok (s.replace (f.assign x.name value) x.frame)

/-- The value of a variable. -/
def read (s : Frames) (x : Variable) : Except FrameError Value := do
  match ← s.slot x with
  | none => .error (.unassigned x)
  | some value => .ok value

/-- The type of the value of a variable, or nothing if the variable was never assigned. -/
def typeOf (s : Frames) (x : Variable) : Except FrameError (Option DataType) := do
  return (← s.slot x).map Value.dataType

end Frames

end ThreeAddress
