import HackVm.Log.Registry
import HackVm.Program

/-!
# Files and loggers together

A world is what a run of the program works on: a file tree, the loggers, and what the console has
shown.  Records are given to a world, which puts them on the console and into log files.  What a
run depends on and has no part in is the host of the world.

`World.setUpLogging` gives a logger its level and handlers.  A logger that has handlers is left
alone unless new ones are forced on it.  `World.build` compiles an input into its output file:
source files are read one at a time, each after the records of those before it were logged.
-/

namespace HackVm

open Files Log

/-- A record on the console, and the name of the logger whose handler put it there. -/
structure Shown where
  owner : String
  record : Record
  deriving DecidableEq, Repr

/-- What a run depends on and never changes. -/
structure Host where
  /-- How writing a content to the file at a location falls short, if it does. -/
  shortfall? : Location → Text.Bytes → Option Shortfall := fun _ _ => none
  /-- What is told in full of a failure, in a run that shows its text and in one that writes it. -/
  trace : Bool → Failure → String := fun _ failure => failure.message
  /-- The mark that ends the options stays as it is where it is the value of an option.  Else such
  a value is empty. -/
  keepsSeparator : Bool := true

/-- A file tree, the loggers, what the console has shown, the time as log lines show it, and the
host. -/
structure World where
  tree : Tree
  registry : Registry
  console : List Shown
  time : String
  host : Host := {}

namespace World

/-- A record on its way to a handler of the logger called `owner`. -/
structure Posting where
  record : Record
  owner : String
  handler : Handler
  deriving DecidableEq, Repr

/-- What the posting shows on the console. -/
def Posting.shown? (posting : Posting) : Option Shown :=
  match posting.handler with
  | .console _ => some ⟨posting.owner, posting.record⟩
  | .file _ _ => none

/-- The file that the posting goes to. -/
def Posting.location? (posting : Posting) : Option Location :=
  match posting.handler with
  | .console _ => none
  | .file _ location => some location

/-- The postings of records, in order. -/
def postings (registry : Registry) (records : List Record) : List Posting :=
  records.flatMap fun record =>
    (registry.targets record).map fun (owner, handler) => ⟨record, owner, handler⟩

/-- What postings write to the file at a location. -/
def linesAt (time : String) (postings : List Posting) (location : Location) : Text.Bytes :=
  (postings.filter (·.location? == some location)).flatMap fun posting =>
    Text.encode (posting.record.text time)

/-- Carries out postings: the console shows its records, and each file takes all its lines. -/
def deliver (world : World) (postings : List Posting) : World :=
  let locations := (postings.filterMap (·.location?)).eraseDups
  { world with
    console := world.console ++ postings.filterMap (·.shown?)
    tree := locations.foldl
      (fun tree location => tree.append location (linesAt world.time postings location))
      world.tree }

/-- Logs records in order. -/
def logAll (world : World) (records : List Record) : World :=
  let registry := records.foldl (fun registry record => registry.touch record.logger)
    world.registry
  ({ world with registry }).deliver (postings registry records)

/-- Logs a record. -/
def log (world : World) (record : Record) : World :=
  world.logAll [record]

/-- The records that the console has shown for one logger and those below it. -/
def shownFor (world : World) (owner : String) : List Record :=
  (world.console.filter (·.owner == owner)).map (·.record)

/-! ## Setting up loggers -/

/-- Adds a handler for a log file to a logger.  The directories above the file are made if they
are missing, and the path of the file is the first record in it. -/
def addLogFile (world : World) (name : String) (path : Path) : World × Except FileError Unit :=
  match world.tree.makeDirectories path.parent with
  | (tree, .error error) => ({ world with tree }, .error error)
  | (tree, .ok ()) =>
    match tree.openNew (tree.absolute path) with
    | .error error => ({ world with tree }, .error error)
    | .ok location =>
      let logger := world.registry.get name
      let handlers := logger.handlers ++ [.file debugLevel location]
      let ready := { world with
        tree := tree.append location []
        registry := world.registry.set name { logger with handlers } }
      (ready.log ⟨infoLevel, knownAs name, .logFileOpened, "Log file: " ++ path.text, none⟩, .ok ())

/-- Sets up a logger with a console handler and, if wanted, a log file.  Without `force` a logger
that has handlers is left alone. -/
def setUpLogging (world : World) (name : String) (level consoleLevel : Int)
    (logFile : Option Path) (force : Bool) : World × Except FileError Unit :=
  let known := { world with registry := world.registry.touch name }
  if !(known.registry.get name).handlers.isEmpty && !force then
    (known, .ok ())
  else
    let ready := { known with registry := known.registry.set name ⟨level, [.console consoleLevel]⟩ }
    match logFile with
    | none => (ready, .ok ())
    | some path => ready.addLogFile name path

/-- Ends logging: no logger stays set up. -/
def closeLogging (world : World) : World :=
  { world with registry := world.registry.clear }

/-! ## Reading -/

/-- Reads the commands of a source file and logs each of them: the name of the source and its
commands. -/
def readCommands (world : World) (path : Path) :
    World × Except Failure (String × List Command) :=
  match world.tree.readSource path with
  | .error error => (world, .error (.file error))
  | .ok source =>
    let (commands, error) := readLines source.name 1 source.lines
    let logged := world.logAll (commands.map fun (number, command) =>
      commandRecord source.name number command)
    match error with
    | some error => (logged, .error (.ofLine error))
    | none => (logged, .ok (source.name, commands.map (·.2)))

/-! ## Building -/

/-- How an input is built. -/
structure Request where
  /-- A source file or a directory of source files. -/
  input : Path
  /-- The output file, if it is not the one that belongs to the input. -/
  output : Option Path
  /-- Whether the program begins with start-up code, if that does not depend on the input. -/
  bootstrap : Option Bool
  /-- Each block begins with a comment that shows its command. -/
  annotate : Bool
  /-- The first cell of the stack. -/
  stackBase : Int
  deriving DecidableEq, Repr

/-- The settings of a request.  A directory is a whole program and begins with start-up code. -/
def settings (world : World) (request : Request) : Except FileError Settings :=
  match request.bootstrap with
  | some bootstrap => .ok ⟨bootstrap, request.annotate, request.stackBase⟩
  | none =>
    (world.tree.isDirectory request.input).map fun isDirectory =>
      ⟨isDirectory, request.annotate, request.stackBase⟩

/-- An input was found. -/
def inputRecord (path : Path) (count : Nat) : Record :=
  ⟨infoLevel, compilationLogger, .inputFound,
    "Input:  " ++ path.text ++ " (" ++ Text.natural count ++ " source" ++
      (if count = 1 then "" else "s") ++ ")", none⟩

/-- An output was written. -/
def outputRecord (path : Path) (text : String) : Record :=
  ⟨infoLevel, compilationLogger, .outputWritten,
    "Output: " ++ path.text ++ " (" ++ Text.natural (text.toList.count '\n') ++ " lines)", none⟩

/-- Compiles source files in order.  A file is read when its turn comes, after everything before it
was logged: a log file that is itself a source is read with the lines it has by then. -/
def compileEach (world : World) (session : Emit.Session) : List Path → World × Outcome
  | [] => (world, .start session)
  | path :: rest =>
    match world.tree.readSource path with
    | .error error => (world, .failed session (.file error))
    | .ok source =>
      let first := compileSource session source
      let logged := world.logAll first.records
      match first.failure with
      | some _ => (logged, first)
      | none =>
        let (last, second) := logged.compileEach first.session rest
        (last, first.followedBy second)

/-- Compiles a program of source files and logs what the compilation does. -/
def compileFiles (world : World) (settings : Settings) (sources : List Path) :
    World × Except Failure String :=
  let start := compileStart settings.session settings.bootstrap
  let logged := world.logAll start.records
  match start.failure with
  | some failure => (logged, .error failure)
  | none =>
    let (last, outcome) := logged.compileEach start.session sources
    (last, (start.followedBy outcome).result)

/-- What a request needs to know before it is compiled: the source files, the settings and the
output file. -/
def plan (world : World) (request : Request) : Except Failure (List Path × Settings × Path) := do
  let sources ← (world.tree.discover request.input).mapError .ofDiscover
  let settings ← (world.settings request).mapError .file
  let output ←
    match request.output with
    | some output => pure output
    | none => (world.tree.outputPath request.input).mapError .file
  return (sources, settings, output)

/-- Builds an input: compiles it and writes the output, whose path is the result.  The output is not
opened unless the whole program was compiled. -/
def build (world : World) (request : Request) : World × Except Failure Path :=
  match world.plan request with
  | .error failure => (world, .error failure)
  | .ok (sources, settings, output) =>
    let found := world.log (inputRecord request.input sources.length)
    match found.compileFiles settings sources with
    | (compiled, .error failure) => (compiled, .error failure)
    | (compiled, .ok text) =>
      match compiled.tree.write output (Text.encode text) compiled.host.shortfall? with
      | (tree, .error error) => ({ compiled with tree }, .error (.file error))
      | (tree, .ok ()) => (({ compiled with tree }).log (outputRecord output text), .ok output)

/-- Compiles an input without writing it. -/
def preview (world : World) (request : Request) : World × Except Failure String :=
  match world.settings request with
  | .error error => (world, .error (.file error))
  | .ok settings =>
    match world.tree.discover request.input with
    | .error error => (world, .error (.ofDiscover error))
    | .ok sources => world.compileFiles settings sources

end World

end HackVm
