import ThreeAddress.CommandLine.Reading
import ThreeAddress.CommandLine.Session

/-!
The program as the user starts it. Texts are written as soon as an instruction writes them, and
input is read no sooner than an instruction asks for it.
-/

namespace ThreeAddress.Main

open CommandLine

/-- The reason for an error as the system words it. -/
def reasonOf : IO.Error → String
  | .noFileOrDirectory _ code details => s!"{details} (os error {code})"
  | .permissionDenied _ code details => s!"{details} (os error {code})"
  | .inappropriateType _ code details => s!"{details} (os error {code})"
  | .invalidArgument _ code details => s!"{details} (os error {code})"
  | .noSuchThing _ code details => s!"{details} (os error {code})"
  | .resourceExhausted _ code details => s!"{details} (os error {code})"
  | .resourceVanished code details => s!"{details} (os error {code})"
  | .otherError code details => s!"{details} (os error {code})"
  | e => toString e

/-- What an attempt yields, or the reason why it fails. -/
def attempt {α : Type} (action : IO α) : IO (Except String α) := do
  try return .ok (← action)
  catch e => return .error (reasonOf e)

/-- The stream of bytes from an origin. -/
def openOrigin : Origin → IO IO.FS.Stream
  | .standardInput => IO.getStdin
  | .file path => return IO.FS.Stream.ofHandle (← IO.FS.Handle.mk path .read)

/-- All bytes of a stream, after those read before. -/
partial def readRest (stream : IO.FS.Stream) (before : ByteArray) : IO ByteArray := do
  let bytes ← stream.read 4096
  if bytes.isEmpty then return before else readRest stream (before ++ bytes)

/-- The next line of a stream with its end, after the bytes read before, latest first. -/
partial def readLine (stream : IO.FS.Stream) (before : List UInt8) : IO (List UInt8) := do
  match (← stream.read 1).toList with
  | [] => return before.reverse
  | byte :: _ =>
    if byte = Input.lineFeed then return (byte :: before).reverse
    else readLine stream (byte :: before)

/-- The files and the standard input of this process. -/
def surroundings : Surroundings IO :=
  { content := fun origin => attempt do
      return (← readRest (← openOrigin origin) .empty).toList
    obstacle := fun origin => do
      match ← attempt (openOrigin origin) with
      | .ok _ => return none
      | .error reason => return some reason }

/-- Whether the next instruction asks for input and none is at hand. -/
def awaitsInput (image : Image) (m : Machine) : Bool :=
  match image.code[m.pc]? with
  | none => false
  | some i => i.opcode = .read && m.input.isEmpty

/-- Hands the next line to a machine that awaits it; what cannot be read is the end of the input. -/
def supply (image : Image) (input : IO.FS.Stream) (m : Machine) : IO Machine := do
  if awaitsInput image m then
    match ← attempt (readLine input []) with
    | .ok line => return { m with input := line }
    | .error _ => return m
  else return m

/-- Passes on what was written, and forgets it. -/
def passOn (m : Machine) : IO (Except String Machine) := attempt do
  for w in m.console.written.reverse do
    let stream ← match w.stream with
      | .out => IO.getStdout
      | .err => IO.getStderr
    stream.putStr w.text
  return { m with console := { m.console with written := [] } }

/-- Runs a machine to its end. -/
partial def drive (image : Image) (input : IO.FS.Stream) (m : Machine) :
    IO (Except Fault Nat) := do
  match (← supply image input m).advance .willing image with
  | .next m =>
    match ← passOn m with
    | .ok m => drive image input m
    | .error reason => return .error (.refused reason)
  | .exit code m => return (← passOn m).map (fun _ => code) |>.mapError .refused
  | .fault fault _ => return .error fault

/-- Finishes both streams, after which a run that went well may still fail. -/
def finish (result : Except Fault Nat) : IO (Except Fault Nat) := do
  let flushed ← attempt do
    (← IO.getStdout).flush
    (← IO.getStderr).flush
  match result, flushed with
  | .ok _, .error reason => return .error (.refused reason)
  | _, _ => return result

/-- The report of a fault. -/
def faultReport (fault : Fault) : Report :=
  .failed fault.failure fault.message

/-- Shows a report and returns its exit status, which differs if the results cannot be written. -/
def present (report : Report) : IO UInt32 := do
  let written ← attempt do
    (← IO.getStdout).putStr report.out
    (← IO.getStdout).flush
  let shown := match written with
    | .ok _ => report
    | .error reason => faultReport (.refused reason)
  (← IO.getStderr).putStr shown.err
  return shown.code.toUInt32

/-- Runs a program on the input from an origin. -/
def runProgram (p : Program) (origin : Origin) : IO UInt32 := do
  let result ← match p.start (Machine.fresh []) with
    | .error fault => pure (Except.error fault)
    | .ok (image, m) => drive image (← openOrigin origin) m
  match ← finish result with
  | .ok code => return code.toUInt32
  | .error fault => present (faultReport fault)

end ThreeAddress.Main

open ThreeAddress CommandLine in
/-- Does what the arguments ask for. -/
def main (arguments : List String) : IO UInt32 := do
  match ← (Request.ofArguments arguments).start Main.surroundings with
  | .finished report => Main.present report
  | .run p origin => Main.runProgram p origin
