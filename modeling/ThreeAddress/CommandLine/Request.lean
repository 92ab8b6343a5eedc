/-! A command line makes a request: to act on a program, or to learn how to do that. -/

namespace ThreeAddress.CommandLine

/-- What can be done with a program. -/
inductive Action where
  | run
  | check
  | format
  deriving DecidableEq, Repr

/-- The files that an action can be given. -/
inductive FileRole where
  /-- The text of the program. -/
  | source
  /-- The input of the program. -/
  | input
  deriving DecidableEq, Repr

namespace Action

/-- All actions, in the order of their introduction. -/
def all : List Action :=
  [run, check, format]

/-- The word that asks for an action. -/
def name : Action → String
  | run => "run"
  | check => "check"
  | format => "fmt"

/-- The action that a word asks for. -/
def ofName? (word : String) : Option Action :=
  all.find? fun action => action.name = word

/-- The files that an action takes; only a run reads input. -/
def takes : Action → FileRole → Bool
  | _, .source => true
  | action, .input => action = run

end Action

/-- Why the arguments make no sense. -/
inductive Misuse where
  | missingAction
  | unknownAction (word : String)
  | unexpected (argument : String)
  | repeated (argument : String)
  | missingValue (argument : String)
  | needlessValue (argument : String)
  deriving DecidableEq, Repr

/-- The wording of a misuse. -/
def Misuse.message : Misuse → String
  | missingAction => "a subcommand is required"
  | unknownAction word => "unrecognized subcommand '" ++ word ++ "'"
  | unexpected argument => "unexpected argument '" ++ argument ++ "' found"
  | repeated argument => "the argument '" ++ argument ++ "' cannot be used multiple times"
  | missingValue argument => "a value is required for '" ++ argument ++ "'"
  | needlessValue argument => "no value is allowed for '" ++ argument ++ "'"

/-- The files named for an action. -/
structure Files where
  source : Option String
  input : Option String
  deriving DecidableEq, Repr

namespace Files

/-- No files. -/
def unnamed : Files :=
  { source := none, input := none }

/-- The file named for a role. -/
def get (files : Files) : FileRole → Option String
  | .source => files.source
  | .input => files.input

/-- Names the file for a role. -/
def set (files : Files) (path : String) : FileRole → Files
  | .source => { files with source := some path }
  | .input => { files with input := some path }

end Files

/-- What a command line asks for. -/
inductive Request where
  | help
  | version
  | misuse (reason : Misuse)
  | perform (action : Action) (files : Files)
  deriving DecidableEq, Repr

end ThreeAddress.CommandLine
