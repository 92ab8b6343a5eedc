import ThreeAddress.Machine.Step

/-!
An execution links a program, runs it from its first instruction and finishes the streams. A
machine can be executed again, and then keeps everything but its position.
-/

namespace ThreeAddress

/-- How an execution ended and the machine it left behind. -/
structure Ending where
  result : Except Fault Nat
  machine : Machine

/-- The reason why the streams cannot be finished: results come before messages. -/
def Devices.flush (devices : Devices) : Option String :=
  devices.flushRefusal .out <|> devices.flushRefusal .err

/-- Finishes the streams, which turns success into a fault if it is refused. -/
def Devices.conclude (devices : Devices) : Except Fault Nat → Except Fault Nat
  -- A fault that ended the run is not replaced by a later one.
  | .error fault => .error fault
  | .ok code =>
    match devices.flush with
    | none => .ok code
    | some reason => .error (.refused reason)

namespace Program

/-- Puts a machine at the first instruction of a program. -/
def start (p : Program) (m : Machine) : Except Fault (Image × Machine) := do
  return (← p.link, { m with pc := 0 })

/-- The ending that an outcome amounts to, unless the run goes on. -/
def ending (devices : Devices) : Outcome → Option Ending
  | .next _ => none
  | .exit code m => some { result := devices.conclude (.ok code), machine := m }
  | .fault fault m => some { result := devices.conclude (.error fault), machine := m }

/-- Executes a program on a machine, unless that takes more than the given number of steps. -/
def execute (devices : Devices) (fuel : Nat) (p : Program) (m : Machine) : Option Ending :=
  match p.start m with
  -- Streams are finished also where the program does not link.
  | .error fault => some { result := devices.conclude (.error fault), machine := m }
  | .ok (image, started) => ending devices (started.run devices image fuel)

end Program

end ThreeAddress
