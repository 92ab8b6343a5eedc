import ThreeAddress.CommandLine.Report
import ThreeAddress.CommandLine.Request
import ThreeAddress.Source.Listing

/-!
A session carries out an action: it loads the program first, and then reports on it or hands it
over to be run. Whatever it asks of its surroundings, it asks in a fixed sequence.
-/

namespace ThreeAddress.CommandLine

/-- What a session can ask of its surroundings; a refused question is answered by its reason. -/
structure Surroundings (m : Type → Type) where
  /-- All bytes of an origin. -/
  content : Origin → m (Except String (List UInt8))
  /-- The reason why an origin cannot be opened, if there is one. -/
  obstacle : Origin → m (Option String)

/-- What a session comes to before any instruction is carried out. -/
inductive Session where
  /-- There is nothing left to do but to report. -/
  | finished (report : Report)
  /-- A program is to be run on input from an origin. -/
  | run (p : Program) (input : Origin)

/-- The program in the bytes of an origin, which must be text. -/
def loadContent (origin : Origin) : Except String (List UInt8) → Except Refusal Program
  | .error reason => .error (.unreadable origin reason)
  | .ok bytes =>
    match String.fromUTF8? ⟨bytes.toArray⟩ with
    | none => .error (.unreadable origin "stream did not contain valid UTF-8")
    | some text => (Program.load text).mapError .unloadable

namespace Session

variable {m : Type → Type} [Monad m]

/-- Goes on with the program of an origin, or reports why there is none. -/
def withProgram (surroundings : Surroundings m) (origin : Origin)
    (next : Program → m Session) : m Session := do
  match loadContent origin (← surroundings.content origin) with
  | .error refusal => return finished (.refused refusal)
  | .ok p => next p

/-- Prepares a run, whose input must exist but is not read yet. -/
def prepare (surroundings : Surroundings m) (input : Origin) (p : Program) : m Session := do
  match ← surroundings.obstacle input with
  | none => return .run p input
  | some reason => return finished (.refused (.unreadable input reason))

/-- Begins an action on the given files. -/
def start (surroundings : Surroundings m) (action : Action) (files : Files) : m Session :=
  let source := Origin.ofFile files.source
  match action with
  | .run =>
    if files.source = none ∧ files.input = none then return finished (.refused .noFiles)
    else withProgram surroundings source (prepare surroundings (Origin.ofFile files.input))
  | .check => withProgram surroundings source fun p => return finished (.checked p)
  | .format => withProgram surroundings source fun p => return finished (.success p.listing)

end Session

/-- The session that a request begins. -/
def Request.start {m : Type → Type} [Monad m] (surroundings : Surroundings m) :
    Request → m Session
  | help => return .finished helpReport
  | version => return .finished versionReport
  | misuse reason => return .finished (.failed .usage reason.message)
  | perform action files => Session.start surroundings action files

end ThreeAddress.CommandLine
