import ThreeAddress.CommandLine.Refusal
import ThreeAddress.Language.Defect
import ThreeAddress.Machine.Execution

/-! A report is all that the user sees in the end: an exit status and the texts on two streams. -/

namespace ThreeAddress.CommandLine

/-- What a program leaves behind: its exit status and the texts on its two streams. -/
structure Report where
  code : Nat
  out : String
  err : String
  deriving DecidableEq, Repr

/-- A message as a line for the user. -/
def errorLine (message : String) : String :=
  "error: " ++ message ++ "\n"

namespace Report

/-- The report of a success that has something to show. -/
def success (out : String) : Report :=
  { code := 0, out, err := "" }

/-- The report of a single failure. -/
def failed (failure : Failure) (message : String) : Report :=
  { code := failure.exitCode, out := "", err := errorLine message }

/-- The report of an action that is refused. -/
def refused (r : Refusal) : Report :=
  failed r.failure r.message

/-- The report on the defects of a program, of which the first decides the exit status. -/
def checked (p : Program) : Report :=
  match p.defects with
  | [] => success s!"OK: {p.instructions.length} instructions\n"
  | first :: rest =>
    { code := first.flaw.failure.exitCode
      out := ""
      err := String.join ((first :: rest).map fun d => errorLine d.message) }

/-- The texts that were written to a stream, in their sequence. -/
def written (console : Console) (stream : Stream) : String :=
  String.join ((console.written.reverse.filter fun w => w.stream = stream).map Write.text)

/-- The report of a run that ended. -/
def ended (ending : Ending) : Report :=
  let out := written ending.machine.console .out
  let err := written ending.machine.console .err
  match ending.result with
  | .ok code => { code, out, err }
  | .error fault =>
    { code := fault.failure.exitCode, out, err := err ++ errorLine fault.message }

end Report

/-- The report on the version of this program. -/
def versionReport : Report :=
  .success "ippvm 0.1.0\n"

/-- The report on how to use this program. -/
def helpReport : Report :=
  .success (String.join
    ["Usage: ippvm [-v] run [--source FILE] [--input FILE]\n",
      "       ippvm [-v] check [--source FILE]\n",
      "       ippvm [-v] fmt [--source FILE]\n",
      "       ippvm help | --help | --version\n"])

end ThreeAddress.CommandLine
