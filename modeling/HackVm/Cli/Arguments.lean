import HackVm.Cli.Flag

/-!
# Arguments of the command line

The arguments give one input and any options, in any order.  Options act from left to right, so a
request for help or for the version ends the reading before any later fault is seen.  Arguments
that are left over are reported last, after a missing input.

The separator can be given to an option as its value.  `keeps` says whether it is kept then.
-/

namespace HackVm.Cli

/-- What the arguments ask for. -/
structure Arguments where
  input : String
  output : Option String
  bootstrap : Option Bool
  annotate : Bool
  stackBase : Option String
  stdout : Bool
  verbose : Nat
  logFile : Option String
  deriving DecidableEq, Repr

/-- How the reading of arguments ends early. -/
inductive Ending where
  | help
  | version
  | usage (error : UsageError)
  deriving DecidableEq, Repr

/-- The state of the reading. -/
structure Reading where
  /-- The options read so far; the input is empty until it is found. -/
  arguments : Arguments
  /-- The input was found. -/
  hasInput : Bool
  /-- The input was the last thing found, so a separator after it belongs to it. -/
  atInput : Bool
  /-- Arguments that belong to nothing. -/
  leftOver : List String
  deriving DecidableEq, Repr

namespace Reading

/-- Before the first argument. -/
def start : Reading where
  arguments := ⟨"", none, none, false, none, false, 0, none⟩
  hasInput := false
  atInput := false
  leftOver := []

/-- Takes the input. -/
def takeInput (reading : Reading) (input : String) : Reading :=
  { reading with arguments := { reading.arguments with input }, hasInput := true, atInput := true }

/-- Sets an argument aside. -/
def setAside (reading : Reading) (argument : String) : Reading :=
  { reading with leftOver := reading.leftOver ++ [argument], atInput := false }

/-- Takes an operand: the input if there is none yet. -/
def takeOperand (reading : Reading) (argument : String) : Reading :=
  if reading.hasInput then reading.setAside argument else reading.takeInput argument

/-- Carries out one option with its value.  A separator that is not kept counts as an empty
value. -/
def act (keeps : Bool) (reading : Reading) (option : Flag) (given : String) :
    Except Ending Reading :=
  let arguments := reading.arguments
  let value := if given == separatorText && !keeps then "" else given
  let proceed (changed : Arguments) : Except Ending Reading :=
    .ok { reading with arguments := changed, atInput := false }
  match option with
  | .help => .error .help
  | .version => .error .version
  | .output => proceed { arguments with output := some value }
  | .stackBase => proceed { arguments with stackBase := some value }
  | .logFile => proceed { arguments with logFile := some value }
  | .annotate => proceed { arguments with annotate := true }
  | .stdout => proceed { arguments with stdout := true }
  | .verbose => proceed { arguments with verbose := arguments.verbose + 1 }
  | .bootstrap =>
    if arguments.bootstrap == some false then .error (.usage (.conflict .bootstrap .noBootstrap))
    else proceed { arguments with bootstrap := some true }
  | .noBootstrap =>
    if arguments.bootstrap == some true then .error (.usage (.conflict .noBootstrap .bootstrap))
    else proceed { arguments with bootstrap := some false }

/-- Carries out options in order. -/
def actAll (keeps : Bool) (reading : Reading) :
    List (Flag × Option String) → Except Ending Reading
  | [] => .ok reading
  | (option, value) :: rest =>
    match reading.act keeps option (value.getD "") with
    | .error ending => .error ending
    | .ok next => next.actAll keeps rest

end Reading

/-- The option that still wants a value, which can only be the last one. -/
def wanting? (options : List (Flag × Option String)) : Option Flag :=
  match options.getLast? with
  | some (option, none) => if option.takesValue then some option else none
  | _ => none

/-- The options with a value for the last one. -/
def withValue (options : List (Flag × Option String)) (option : Flag) (value : String) :
    List (Flag × Option String) :=
  options.dropLast ++ [(option, some value)]

/-- Reads an option, given the argument after it: the reading after it, and whether that argument
was taken as a value. -/
def readOption (keeps : Bool) (reading : Reading) (options : List (Flag × Option String))
    (next : Option (String × Word)) : Except Ending (Reading × Bool) :=
  match wanting? options, next with
  | none, _ => (reading.actAll keeps options).map (·, false)
  | some last, some (value, .operand) =>
    (reading.actAll keeps (withValue options last value)).map (·, true)
  | some last, _ => .error (.usage (.expectsValue last))

/-- Reads classified arguments.  `taken` says that the first of them was taken as a value
already. -/
def readWords (keeps taken : Bool) (reading : Reading) :
    List (String × Word) → Except Ending Reading
  | [] => .ok reading
  | (argument, word) :: rest =>
    if taken then readWords keeps false reading rest
    else
      match word with
      | .operand => readWords keeps false (reading.takeOperand argument) rest
      | .unknown => readWords keeps false (reading.setAside argument) rest
      | .separator =>
        if reading.hasInput && !reading.atInput then
          readWords keeps false (reading.setAside argument) rest
        else
          readWords keeps false reading rest
      | .option option isShort value =>
        match expand option isShort value with
        | .error error => .error (.usage error)
        | .ok options =>
          match readOption keeps reading options rest.head? with
          | .error ending => .error ending
          | .ok (next, taken) => readWords keeps taken next rest

/-- Reads the arguments of the command line. -/
def Arguments.ofList (keeps : Bool) (arguments : List String) : Except Ending Arguments :=
  match classifyAll arguments with
  | .error error => .error (.usage error)
  | .ok words =>
    match readWords keeps false .start words with
    | .error ending => .error ending
    | .ok reading =>
      if !reading.hasInput then .error (.usage .missingInput)
      else if !reading.leftOver.isEmpty then .error (.usage (.unrecognized reading.leftOver))
      else .ok reading.arguments

end HackVm.Cli
