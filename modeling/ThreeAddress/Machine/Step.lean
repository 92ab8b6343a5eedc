import ThreeAddress.Machine.Dump
import ThreeAddress.Machine.Effect
import ThreeAddress.Machine.Input

/-! One step fetches an instruction, reduces it to its effect and carries the effect out. -/

namespace ThreeAddress

/-- What a step leads to; the machine is shown as the step left it. -/
inductive Outcome where
  /-- The run goes on. -/
  | next (machine : Machine)
  /-- The run ends with a status. -/
  | exit (code : Nat) (machine : Machine)
  /-- The run ends with a fault. -/
  | fault (fault : Fault) (machine : Machine)
  deriving DecidableEq, Repr

namespace Machine

/-- Installs the frames that an operation leads to. -/
def setFrames (m : Machine) (order : UInt64) : Except FrameError Frames → Outcome
  | .error e => .fault (.raised order (.frame e)) m
  | .ok frames => .next { m with frames }

/-- Writes a text to a stream. -/
def write (devices : Devices) (m : Machine) (stream : Stream) (text : String) : Outcome :=
  match m.console.write devices stream text with
  | (none, console) => .next { m with console }
  | (some reason, console) => .fault (.refused reason) { m with console }

/-- Assigns the next line of input, which stays unread if the variable cannot be assigned. -/
def receive (m : Machine) (order : UInt64) (x : Variable) (t : DataType) : Outcome :=
  match m.frames.typeOf x with
  | .error e => .fault (.raised order (.frame e)) m
  | .ok _ =>
    -- The line is consumed even if it does not convert.
    let (line, input) := Input.next m.input
    { m with input }.setFrames order (m.frames.assign x (Input.value t line))

/-- Assigns the top of the data stack, which stays there if the variable cannot be assigned. -/
def popInto (m : Machine) (order : UInt64) (x : Variable) : Outcome :=
  match m.frames.typeOf x with
  | .error e => .fault (.raised order (.frame e)) m
  | .ok _ =>
    -- A variable that cannot be assigned is reported before an empty stack.
    match m.dataStack with
    | [] => .fault (.raised order .emptyDataStack) m
    | value :: dataStack => { m with dataStack }.setFrames order (m.frames.assign x value)

/-- Continues after the latest call that has not returned. -/
def backToCaller (m : Machine) (order : UInt64) : Outcome :=
  match m.callStack with
  | [] => .fault (.raised order .emptyCallStack) m
  | position :: callStack => .next { m with callStack, pc := position + 1 }

/-- Carries out the effect of the instruction of the given order, which was fetched just before. -/
def perform (devices : Devices) (m : Machine) (order : UInt64) : Effect → Outcome
  | .skip => .next m
  | .createFrame => .next { m with frames := m.frames.create }
  | .pushFrame => m.setFrames order m.frames.push
  | .popFrame => m.setFrames order m.frames.pop
  | .declare x => m.setFrames order (m.frames.declare x)
  | .assign x value => m.setFrames order (m.frames.assign x value)
  | .receive x t => m.receive order x t
  | .push value => .next { m with dataStack := value :: m.dataStack }
  | .pop x => m.popInto order x
  -- Fetching has moved the position past the call, which is what the stack remembers.
  | .call target => .next { m with callStack := (m.pc - 1) :: m.callStack, pc := target }
  | .ret => m.backToCaller order
  | .jump target => .next { m with pc := target }
  | .write stream text => m.write devices stream text
  | .dump => m.write devices .err (m.dump order)
  | .exit code => .exit code m

end Machine

/-- Counts the instruction of an outcome as completed, unless it failed. -/
def Outcome.complete (opcode : Opcode) : Outcome → Outcome
  | next m => next (m.complete opcode)
  | exit code m => exit code (m.complete opcode)
  | fault f m => fault f m

namespace Machine

/-- Carries out an instruction that was fetched just before. -/
def step (devices : Devices) (labels : Labels) (m : Machine) (i : Instruction) : Outcome :=
  -- Reducing an instruction only reads, so a machine is left alone where that fails.
  match i.effect labels m.frames with
  | .error cause => .fault (.raised i.order cause) m
  | .ok effect => (m.perform devices i.order effect).complete i.opcode

/-- Fetches the next instruction and carries it out; past the last one the run ends. -/
def advance (devices : Devices) (image : Image) (m : Machine) : Outcome :=
  match image.code[m.pc]? with
  | none => .exit 0 m
  | some i => { m with pc := m.pc + 1 }.step devices image.labels i

/-- Takes at most the given number of steps. -/
def run (devices : Devices) (image : Image) : Nat → Machine → Outcome
  | 0, m => .next m
  | fuel + 1, m =>
    match m.advance devices image with
    | .next m => run devices image fuel m
    | ended => ended

end Machine

end ThreeAddress
