import HackVm.Text.Numeral

/-!
# Options of the command line

An option has one or two spellings.  A long spelling may be shortened as long as it fits no other
spelling, and may carry a value after an equals sign.  A short spelling may carry its value
directly, or, when it takes none, other short options.

`classify` decides for each argument by itself whether it is an option.  An argument that looks
like a negative number, holds a space, or is a single dash is an operand.
-/

namespace HackVm.Cli

/-- The options. -/
inductive Flag where
  | help | output | bootstrap | noBootstrap | annotate | stackBase | stdout | verbose | logFile
  | version
  deriving DecidableEq, Repr

namespace Flag

/-- The spellings of all options, in the order in which they are listed. -/
def spellings : List (String × Flag) :=
  [("-h", .help), ("--help", .help), ("-o", .output), ("--output", .output),
   ("--bootstrap", .bootstrap), ("--no-bootstrap", .noBootstrap), ("--annotate", .annotate),
   ("--stack-base", .stackBase), ("--stdout", .stdout), ("--verbose", .verbose),
   ("-v", .verbose), ("--log-file", .logFile), ("--version", .version)]

/-- The option takes a value. -/
def takesValue : Flag → Bool
  | .output | .stackBase | .logFile => true
  | _ => false

/-- The name of an option in messages: its spellings with a slash between them. -/
def title (option : Flag) : String :=
  String.intercalate "/" ((spellings.filter (·.2 == option)).map (·.1))

end Flag

/-- Why arguments are not accepted. -/
inductive UsageError where
  /-- A shortened option fits several spellings. -/
  | ambiguous (argument : String) (spellings : List String)
  /-- An option that takes no value is given one. -/
  | ignoredValue (option : Flag) (value : String)
  /-- An option that takes a value is given none. -/
  | expectsValue (option : Flag)
  /-- Two options exclude each other. -/
  | conflict (option other : Flag)
  /-- There is no input. -/
  | missingInput
  /-- Arguments are left over. -/
  | unrecognized (arguments : List String)
  deriving DecidableEq, Repr

/-- The wording of a usage error. -/
def UsageError.message : UsageError → String
  | .ambiguous argument spellings =>
    "ambiguous option: " ++ argument ++ " could match " ++ String.intercalate ", " spellings
  | .ignoredValue option value =>
    "argument " ++ option.title ++ ": ignored explicit argument " ++ Text.quoted value
  | .expectsValue option => "argument " ++ option.title ++ ": expected one argument"
  | .conflict option other =>
    "argument " ++ option.title ++ ": not allowed with argument " ++ other.title
  | .missingInput => "the following arguments are required: input"
  | .unrecognized arguments => "unrecognized arguments: " ++ String.intercalate " " arguments

/-- The argument after which every argument is an operand. -/
def separatorText : String := "--"

/-- What an argument is by itself. -/
inductive Word where
  /-- The mark after which every argument is an operand. -/
  | separator
  /-- The input, or a value of an option. -/
  | operand
  /-- An option, in a short or a long spelling, with the value that it carries. -/
  | option (option : Flag) (isShort : Bool) (value : Option String)
  /-- Something like an option that fits no spelling. -/
  | unknown
  deriving DecidableEq, Repr

/-- A dash and digits, or a dash, any number of digits, a point and digits.  A line feed may
follow. -/
def isNegativeNumber (argument : List Char) : Bool :=
  let isDigits (text : List Char) := !text.isEmpty && text.all Text.isDecimalDigit
  let isNumber (text : List Char) :=
    match text with
    | '-' :: body =>
      isDigits body ||
        match body.dropWhile Text.isDecimalDigit with
        | '.' :: fraction => isDigits fraction
        | _ => false
    | _ => false
  isNumber argument || (argument.getLast? == some '\n' && isNumber argument.dropLast)

/-- A spelling with a single dash. -/
def isShortSpelling (spelling : String) : Bool :=
  spelling.length == 2

/-- The part of an argument before its first equals sign, and the part after it. -/
def splitValue (argument : String) : String × Option String :=
  let chars := argument.toList
  let name := chars.takeWhile (· != '=')
  match chars.drop name.length with
  | [] => (argument, none)
  | _ :: value => (String.ofList name, some (String.ofList value))

/-- The option with exactly that spelling. -/
def flagOf? (spelling : String) : Option Flag :=
  Flag.spellings.lookup spelling

/-- An argument that fits no spelling. -/
def classifyUnknown (argument : List Char) : Word :=
  if isNegativeNumber argument || argument.contains ' ' then .operand else .unknown

/-- An argument with two dashes that is no exact spelling: a shortened spelling. -/
def classifyLong (argument : String) : Except UsageError Word :=
  let (name, value) := splitValue argument
  match Flag.spellings.filter fun entry => name.toList.isPrefixOf entry.1.toList with
  | [] => .ok (classifyUnknown argument.toList)
  | [(_, option)] => .ok (.option option false value)
  | several => .error (.ambiguous argument (several.map (·.1)))

/-- An argument with one dash that is no exact spelling: a short option with something after
it. -/
def classifyShort (argument : String) : Word :=
  match flagOf? (String.ofList (argument.toList.take 2)) with
  | some option => .option option true (some (String.ofList (argument.toList.drop 2)))
  | none => classifyUnknown argument.toList

/-- What an argument is by itself. -/
def classify (argument : String) : Except UsageError Word :=
  match flagOf? argument with
  | some option => .ok (.option option (isShortSpelling argument) none)
  | none =>
    match argument.toList with
    | '-' :: second :: _ =>
      let (name, value) := splitValue argument
      match value, flagOf? name with
      | some value, some option => .ok (.option option (isShortSpelling name) (some value))
      | _, _ => if second == '-' then classifyLong argument else .ok (classifyShort argument)
    | _ => .ok .operand

/-- Classifies arguments.  After the separator every argument is an operand. -/
def classifyAll : List String → Except UsageError (List (String × Word))
  | [] => .ok []
  | argument :: rest =>
    if argument == separatorText then
      .ok ((argument, .separator) :: rest.map fun later => (later, .operand))
    else do
      let word ← classify argument
      let words ← classifyAll rest
      return (argument, word) :: words

/-- The options that a short option with something after it stands for.  Only the last of them can
have a value; when it takes one and has none, the value is the next argument. -/
def expandShort (option : Flag) (value : List Char) :
    Except UsageError (List (Flag × Option String)) :=
  if option.takesValue then .ok [(option, some (String.ofList value))]
  else
    match value with
    | [] => .error (.ignoredValue option "")
    | letter :: rest =>
      match flagOf? (String.ofList ['-', letter]) with
      | none => .error (.ignoredValue option (String.ofList value))
      | some next =>
        if rest.isEmpty then .ok [(option, none), (next, none)]
        else do
          let others ← expandShort next rest
          return (option, none) :: others

/-- The options that an argument stands for. -/
def expand (option : Flag) (isShort : Bool) (value : Option String) :
    Except UsageError (List (Flag × Option String)) :=
  match value with
  | none => .ok [(option, none)]
  | some value =>
    if isShort then expandShort option value.toList
    else if option.takesValue then .ok [(option, some value)]
    else .error (.ignoredValue option value)

end HackVm.Cli
