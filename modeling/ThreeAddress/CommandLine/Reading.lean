import ThreeAddress.CommandLine.Request

/-!
The arguments of a command line are read from left to right, and the first one that asks for help,
asks for the version or is out of place decides.
-/

namespace ThreeAddress.CommandLine

/-- The shapes of arguments. -/
inductive Shape where
  /-- Two hyphens alone, after which there are no options. -/
  | stop
  /-- A name after two hyphens, and the value after an equals sign if there is one. -/
  | long (name : String) (attached : Option String)
  /-- Letters after one hyphen. -/
  | short (letters : List Char)
  /-- Anything else. -/
  | word
  deriving DecidableEq, Repr

/-- The shape of an argument. -/
def shape (argument : String) : Shape :=
  match argument.toList with
  | ['-', '-'] => .stop
  | '-' :: '-' :: rest =>
    let attached := match rest.dropWhile (· ≠ '=') with
      | [] => none
      | _ :: value => some (String.ofList value)
    .long (String.ofList (rest.takeWhile (· ≠ '='))) attached
  | '-' :: c :: letters => .short (c :: letters)
  | _ => .word

/-- A request that is settled early, or the state in which reading goes on. -/
abbrev Reading (α : Type) := Except Request α

/-- Reading cannot go on. -/
def misused {α : Type} (reason : Misuse) : Reading α :=
  .error (.misuse reason)

/-- Gives the switch for messages, which each command level takes once; there are none to show. -/
def giveVerbose (given : Bool) : Reading Bool :=
  if given then misused (.repeated "--verbose") else .ok true

/-- Reads letters; the version can only be asked for before the action. -/
def readLetters (beforeAction given : Bool) : List Char → Reading Bool
  | [] => .ok given
  | c :: rest =>
    if c = 'v' then (giveVerbose given).bind fun now => readLetters beforeAction now rest
    else if c = 'h' then .error .help
    else if c = 'V' && beforeAction then .error .version
    else misused (.unexpected (String.ofList ['-', c]))

/-- The switches that have names. -/
inductive Switch where
  | verbose
  | help
  | version
  deriving DecidableEq, Repr

/-- The switch of the given name, which may depend on whether an action was named before. -/
def Switch.ofName? (beforeAction : Bool) (name : String) : Option Switch :=
  if name = "verbose" then some .verbose
  else if name = "help" then some .help
  else if name = "version" && beforeAction then some .version
  else none

/-- Reads a named switch, which takes no value. -/
def readSwitch (beforeAction given : Bool) (name : String) (attached : Option String) :
    Reading Bool :=
  match Switch.ofName? beforeAction name, attached with
  | none, _ => misused (.unexpected ("--" ++ name))
  | some _, some _ => misused (.needlessValue ("--" ++ name))
  | some .verbose, none => giveVerbose given
  | some .help, none => .error .help
  | some .version, none => .error .version

/-- The file role of the given name, if the action takes such a file. -/
def Action.role? (action : Action) (name : String) : Option FileRole :=
  let role := if name = "source" then some FileRole.source
    else if name = "input" then some FileRole.input
    else none
  role.filter action.takes

/-- Names a file, once for each role. -/
def giveFile (files : Files) (role : FileRole) (name path : String) : Reading Files :=
  if path = "" then misused (.missingValue ("--" ++ name))
  else if (files.get role).isSome then misused (.repeated ("--" ++ name))
  else .ok (files.set path role)

/-- Reads the arguments after an action. -/
def readOptions (action : Action) (given : Bool) (files : Files) : List String → Reading Files
  | [] => .ok files
  | argument :: rest =>
    match shape argument with
    | .word => misused (.unexpected argument)
    | .stop =>
      -- No action takes an argument that is no option.
      match rest with
      | [] => .ok files
      | next :: _ => misused (.unexpected next)
    | .short letters =>
      (readLetters false given letters).bind fun now => readOptions action now files rest
    | .long name attached =>
      match action.role? name, attached with
      | none, _ =>
        (readSwitch false given name attached).bind fun now => readOptions action now files rest
      | some role, some path =>
        (giveFile files role name path).bind fun more => readOptions action given more rest
      | some role, none =>
        match rest with
        | [] => misused (.missingValue argument)
        | path :: others =>
          -- What looks like an option is never taken for the name of a file.
          if shape path = .word then
            (giveFile files role name path).bind fun more => readOptions action given more others
          else misused (.missingValue argument)

/-- The word that asks for help in the place of an action. -/
def helpWord : String := "help"

/-- The request that begins with the word for help, after which one action may be named. -/
def helpRequest : List String → Request
  | [] => .help
  | word :: rest =>
    if word = helpWord || (Action.ofName? word).isSome then
      match rest with
      | [] => .help
      | next :: _ => .misuse (.unknownAction next)
    else .misuse (.unknownAction word)

/-- The request that ends a reading of the arguments after an action. -/
def Action.request (action : Action) : Reading Files → Request
  | .error request => request
  | .ok files => .perform action files

/-- Reads the arguments up to an action, and then those after it. -/
def readArguments (given : Bool) : List String → Request
  | [] => .misuse .missingAction
  | argument :: rest =>
    match shape argument with
    | .stop => .misuse .missingAction
    | .short letters =>
      match readLetters true given letters with
      | .error request => request
      | .ok now => readArguments now rest
    | .long name attached =>
      match readSwitch true given name attached with
      | .error request => request
      | .ok now => readArguments now rest
    | .word =>
      if argument = helpWord then helpRequest rest
      else
        match Action.ofName? argument with
        | none => .misuse (.unknownAction argument)
        | some action => action.request (readOptions action false .unnamed rest)

/-- The request that the arguments of the command line make. -/
def Request.ofArguments (arguments : List String) : Request :=
  readArguments false arguments

end ThreeAddress.CommandLine
