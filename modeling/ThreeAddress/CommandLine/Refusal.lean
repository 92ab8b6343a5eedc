import ThreeAddress.Loading

/-! An action is refused if its program cannot be read or loaded, or its input does not exist. -/

namespace ThreeAddress.CommandLine

/-- Where bytes come from. -/
inductive Origin where
  | standardInput
  | file (path : String)
  deriving DecidableEq, Repr

/-- How messages name an origin. -/
def Origin.name : Origin → String
  | standardInput => "stdin"
  | file path => "'" ++ path ++ "'"

/-- The origin of a file that may be named; standard input takes the place of one that is not. -/
def Origin.ofFile : Option String → Origin
  | none => .standardInput
  | some path => .file path

/-- Why an action cannot be carried out. -/
inductive Refusal where
  /-- A run that is given no file would read program and input from one place. -/
  | noFiles
  | unreadable (origin : Origin) (reason : String)
  | unloadable (error : LoadError)
  deriving DecidableEq, Repr

namespace Refusal

/-- The wording of a refusal. -/
def message : Refusal → String
  | noFiles => "at least one of --source and --input is required"
  | unreadable origin reason => "cannot read " ++ origin.name ++ ": " ++ reason
  | unloadable error => error.message

/-- The class of a refusal. -/
def failure : Refusal → Failure
  | noFiles => .usage
  | unreadable _ _ => .unreadableInput
  | unloadable error => error.failure

end Refusal

end ThreeAddress.CommandLine
