import HackVm.Cli.Arguments
import HackVm.Cli.Usage
import HackVm.World

/-!
# The command line

One run of the program: the arguments are read, logging is set up, the input is built or shown,
and every failure becomes a log record and an exit code.  Code 1 stands for a fault in what the
user gave, code 2 for anything else.

A log file that cannot be opened is not turned into an exit code: the run breaks off with the
error itself.
-/

namespace HackVm.Cli

open Files Log

/-- How a run ends. -/
inductive Ended where
  /-- With an exit code and what was printed. -/
  | exit (code : Nat) (stdout : String)
  /-- Before the work began, by the arguments alone. -/
  | byArguments (code : Nat) (stdout stderr : String)
  /-- Without an exit code, because logging could not be set up. -/
  | broken (error : FileError)
  deriving DecidableEq, Repr

/-- An error record of the command line itself. -/
def errorRecord (site : Site) (message : String) : Record :=
  ⟨errorLevel, commandLineLogger, site, message, none⟩

/-- The record of a failure that is told in full. -/
def traceRecord (trace : String) : Record :=
  ⟨errorLevel, commandLineLogger, .brokenInFull, "Traceback", some trace⟩

/-- How a run ends by its arguments. -/
def Ending.ended : Ending → Ended
  | .help => .byArguments 0 helpText ""
  | .version => .byArguments 0 (programName ++ " " ++ versionText ++ "\n") ""
  | .usage error =>
    .byArguments 2 "" (usageText ++ programName ++ ": error: " ++ error.message ++ "\n")

/-- The level from which the console shows records. -/
def consoleLevel : Nat → Int
  | 0 => warningLevel
  | 1 => infoLevel
  | _ + 2 => debugLevel

/-- What a failure means for the command line: its exit code, the site of its log record and the
words that the record begins with. -/
structure Verdict where
  code : Nat
  site : Site
  heading : String
  deriving DecidableEq, Repr

/-- A failure that is not the user's. -/
def Verdict.broken : Verdict :=
  ⟨2, .broken, "Internal translator error: "⟩

/-- The verdict on a failure. -/
def classifyFailure : Failure → Verdict
  | .input _ => ⟨1, .inputRefused, "Input error: "⟩
  | .malformed _ => ⟨1, .lineRefused, "Parse error: "⟩
  | .refused _ => ⟨1, .commandRefused, "Translation error: "⟩
  | .file (.system _ _) => ⟨1, .fileRefused, "I/O error: "⟩
  | .file .nulInPath => .broken
  | .file (.notText _) => .broken
  | .file (.unwritten (.system _ _)) => ⟨1, .fileRefused, "I/O error: "⟩
  | .file (.unwritten (.other _)) => .broken
  | .number _ => .broken

/-- Ends a run with a failure.  A failure that is not the user's is told in full by a second record
when the run is verbose. -/
def fail (world : World) (arguments : Arguments) (failure : Failure) : World × Ended :=
  let verdict := classifyFailure failure
  let reported := world.log (errorRecord verdict.site (verdict.heading ++ failure.message))
  let world :=
    if verdict = .broken ∧ 0 < arguments.verbose then
      reported.log (traceRecord (world.host.trace arguments.stdout failure))
    else
      reported
  (world, .exit verdict.code "")

/-- The option's text, unless it is missing or empty. -/
def given? (text : Option String) : Option String :=
  text.filter (!·.isEmpty)

/-- The first cell of the stack that the arguments ask for. -/
def stackBaseOf (arguments : Arguments) : Except Text.NumberError Int :=
  match given? arguments.stackBase with
  | some text => Text.readNotation text
  | none => .ok Emit.stackBase

/-- What the arguments ask to be built. -/
def requestOf (arguments : Arguments) (stackBase : Int) : World.Request where
  input := .ofString arguments.input
  output := (given? arguments.output).map .ofString
  bootstrap := arguments.bootstrap
  annotate := arguments.annotate
  stackBase := stackBase

/-- Builds or shows the input. -/
def work (world : World) (arguments : Arguments) (stackBase : Int) : World × Ended :=
  let request := requestOf arguments stackBase
  if arguments.stdout then
    match world.preview request with
    | (world, .ok text) => (world, .exit 0 text)
    | (world, .error failure) => fail world arguments failure
  else
    match world.build request with
    | (world, .ok path) => (world, .exit 0 (path.text ++ "\n"))
    | (world, .error failure) => fail world arguments failure

/-- Runs with arguments that were read. -/
def runWith (world : World) (arguments : Arguments) : World × Ended :=
  let logFile := (given? arguments.logFile).map Path.ofString
  match world.setUpLogging rootLogger debugLevel (consoleLevel arguments.verbose) logFile true with
  | (world, .error error) => (world, .broken error)
  | (world, .ok ()) =>
    match stackBaseOf arguments with
    | .ok stackBase => work world arguments stackBase
    | .error _ =>
      let text := arguments.stackBase.getD ""
      (world.log (errorRecord .stackBaseRefused ("Invalid --stack-base: " ++ text)), .exit 1 "")

/-- Runs the program with the arguments of a command line. -/
def run (world : World) (arguments : List String) : World × Ended :=
  match Arguments.ofList world.host.keepsSeparator arguments with
  | .error ending => (world, ending.ended)
  | .ok arguments => runWith world arguments

end HackVm.Cli
