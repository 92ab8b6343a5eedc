/-! The console records what a run writes to its two streams, and the devices behind may refuse. -/

namespace ThreeAddress

/-- The streams that a program writes to. -/
inductive Stream where
  /-- The results of the program. -/
  | out
  /-- The messages for whoever debugs the program. -/
  | err
  deriving DecidableEq, Repr

/-- A text that arrived at a stream in one piece. -/
structure Write where
  stream : Stream
  text : String
  deriving DecidableEq, Repr

/-- How the devices behind the streams behave, where writes to a stream are counted from one. -/
structure Devices where
  /-- The reason for refusing a write, if it is refused. -/
  refusal : Stream → Nat → Option String
  /-- The reason for refusing to finish a stream, if that is refused. -/
  flushRefusal : Stream → Option String

/-- Devices that take everything. -/
def Devices.willing : Devices :=
  { refusal := fun _ _ => none, flushRefusal := fun _ => none }

/-- What was written so far, latest first, and how many writes each stream has seen. -/
structure Console where
  written : List Write
  outCount : Nat
  errCount : Nat
  deriving DecidableEq, Repr

namespace Console

/-- A console that has seen no writes. -/
def empty : Console :=
  { written := [], outCount := 0, errCount := 0 }

/-- The number of writes that a stream has seen. -/
def count (c : Console) : Stream → Nat
  | .out => c.outCount
  | .err => c.errCount

/-- A console that has seen one more write to a stream. -/
def bump (c : Console) : Stream → Console
  | .out => { c with outCount := c.outCount + 1 }
  | .err => { c with errCount := c.errCount + 1 }

/-- Writes a text, which is recorded unless the device refuses it; an empty text is no write. -/
def write (devices : Devices) (c : Console) (stream : Stream) (text : String) :
    Option String × Console :=
  if text = "" then (none, c)
  else
    -- A refused write counts as well, though nothing of it is recorded.
    let seen := c.bump stream
    match devices.refusal stream (seen.count stream) with
    | some reason => (some reason, seen)
    | none => (none, { seen with written := ⟨stream, text⟩ :: seen.written })

end Console

end ThreeAddress
