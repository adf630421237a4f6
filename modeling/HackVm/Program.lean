import HackVm.Emit.Session
import HackVm.Files.Sources
import HackVm.Log.Record
import HackVm.Vm.Line

/-!
# Compiling a program

A program is a list of sources.  Its code is the start-up code, if wanted, and the code of every
command of every source in order.  The first fault ends the compilation.

An `Outcome` tells everything a compilation did up to its end or its fault: the
statements, the number of commands, the session left behind and the log records.
-/

namespace HackVm

open Emit Files Log

/-- Why a program was not compiled. -/
inductive Failure where
  | number (error : Text.NumberError)
  | malformed (error : Malformed)
  | refused (refusal : Refusal)
  | input (error : InputError)
  | file (error : FileError)
  deriving DecidableEq, Repr

namespace Failure

/-- The wording of a failure. -/
def message : Failure → String
  | .number error => error.message
  | .malformed error => error.message
  | .refused refusal => refusal.message
  | .input error => error.message
  | .file error => error.message

/-- A fault of a line. -/
def ofLine : LineError → Failure
  | .malformed error => .malformed error
  | .number error => .number error

/-- A fault of an emission. -/
def ofEmit : EmitError → Failure
  | .refused refusal => .refused refusal
  | .number error => .number error

/-- A failed search for sources. -/
def ofDiscover : DiscoverError → Failure
  | .input error => .input error
  | .file error => .file error

end Failure

/-- What a compilation did. -/
structure Outcome where
  /-- The session left behind. -/
  session : Session
  /-- The number of commands compiled. -/
  count : Nat
  /-- The statements emitted. -/
  statements : List Statement
  /-- The log records, in order. -/
  records : List Record
  /-- The fault that ended it. -/
  failure : Option Failure
  deriving DecidableEq, Repr

namespace Outcome

/-- Nothing done in a session. -/
def start (session : Session) : Outcome :=
  ⟨session, 0, [], [], none⟩

/-- A fault with nothing done. -/
def failed (session : Session) (failure : Failure) : Outcome :=
  ⟨session, 0, [], [], some failure⟩

/-- Puts a log record before an outcome. -/
def withRecord (outcome : Outcome) (record : Record) : Outcome :=
  { outcome with records := record :: outcome.records }

/-- Puts the statements of one command before an outcome. -/
def withCommand (outcome : Outcome) (statements : List Statement) : Outcome :=
  { outcome with count := outcome.count + 1, statements := statements ++ outcome.statements }

/-- Two outcomes, one after the other. -/
def followedBy (first second : Outcome) : Outcome :=
  { second with
    count := first.count + second.count
    statements := first.statements ++ second.statements
    records := first.records ++ second.records }

/-- Goes on after an outcome, unless it ended with a fault. -/
def andThen (first : Outcome) (next : Session → Outcome) : Outcome :=
  match first.failure with
  | some _ => first
  | none => first.followedBy (next first.session)

@[simp] theorem failure_followedBy (first second : Outcome) :
    (first.followedBy second).failure = second.failure := rfl

@[simp] theorem session_followedBy (first second : Outcome) :
    (first.followedBy second).session = second.session := rfl

@[simp] theorem count_followedBy (first second : Outcome) :
    (first.followedBy second).count = first.count + second.count := rfl

theorem start_followedBy (session : Session) (outcome : Outcome) :
    (Outcome.start session).followedBy outcome = outcome := by
  simp [followedBy, start]

theorem followedBy_assoc (first second third : Outcome) :
    (first.followedBy second).followedBy third = first.followedBy (second.followedBy third) := by
  simp [followedBy, Nat.add_assoc]

theorem withCommand_withRecord (outcome : Outcome) (session : Session)
    (statements : List Statement) (record : Record) :
    (outcome.withCommand statements).withRecord record =
      (⟨session, 1, statements, [record], none⟩ : Outcome).followedBy outcome := by
  simp [followedBy, withCommand, withRecord, Nat.add_comm]

theorem andThen_of_none {first : Outcome} (h : first.failure = none) (next : Session → Outcome) :
    first.andThen next = first.followedBy (next first.session) := by
  rw [andThen, h]

/-- The assembly text, or the fault. -/
def result (outcome : Outcome) : Except Failure String :=
  match outcome.failure with
  | some failure => .error failure
  | none => .ok (assembly outcome.statements)

end Outcome

/-! ## Records -/

/-- A command was read. -/
def commandRecord (source : String) (number : Nat) (command : Command) : Record :=
  ⟨debugLevel, readingLogger, .commandRead,
    source ++ ":" ++ Text.natural number ++ ": " ++ command.text, none⟩

/-- A source was opened. -/
def sourceRecord (name : String) : Record :=
  ⟨debugLevel, emissionLogger, .sourceOpened, "static namespace -> " ++ name, none⟩

/-- A source was compiled. -/
def compiledRecord (name : String) (count : Nat) : Record :=
  ⟨infoLevel, compilationLogger, .sourceCompiled,
    "Translated " ++ name ++ " (" ++ Text.natural count ++ " commands)", none⟩

/-- Start-up code is emitted.  There is no record when the stack base is beyond the digit limit. -/
def bootstrapRecords (stackBase : Int) : List Record :=
  if Text.isWritable stackBase then
    [⟨debugLevel, compilationLogger, .bootstrapBegun,
      "Emitting bootstrap (SP=" ++ Text.decimal stackBase ++ ", call Sys.init)", none⟩]
  else
    []

/-! ## Compilation -/

/-- Compiles the lines of a source from line `number` on. -/
def compileLines (source : String) (number : Nat) (session : Session) : List String → Outcome
  | [] => .start session
  | line :: rest =>
    match readLine source number line with
    | .error error => .failed session (.ofLine error)
    | .ok none => compileLines source (number + 1) session rest
    | .ok (some command) =>
      let outcome :=
        match session.emit command with
        | (next, .error error) => Outcome.failed next (.ofEmit error)
        | (next, .ok statements) =>
          (compileLines source (number + 1) next rest).withCommand statements
      outcome.withRecord (commandRecord source number command)

section FirstLine

variable {source line : String} {number : Nat} {session next : Session} {command : Command}

theorem compileLines_unread {error : LineError} (hread : readLine source number line = .error error)
    (rest : List String) :
    compileLines source number session (line :: rest) = .failed session (.ofLine error) := by
  rw [compileLines, hread]

theorem compileLines_blank (hread : readLine source number line = .ok none) (rest : List String) :
    compileLines source number session (line :: rest) =
      compileLines source (number + 1) session rest := by
  rw [compileLines, hread]

theorem compileLines_unemitted {error : EmitError}
    (hread : readLine source number line = .ok (some command))
    (hemit : session.emit command = (next, .error error)) (rest : List String) :
    compileLines source number session (line :: rest) =
      (Outcome.failed next (.ofEmit error)).withRecord (commandRecord source number command) := by
  rw [compileLines, hread]
  simp only [hemit]

theorem compileLines_command {block : List Statement}
    (hread : readLine source number line = .ok (some command))
    (hemit : session.emit command = (next, .ok block)) (rest : List String) :
    compileLines source number session (line :: rest) =
      ((compileLines source (number + 1) next rest).withCommand block).withRecord
        (commandRecord source number command) := by
  rw [compileLines, hread]
  simp only [hemit]

end FirstLine

/-- Compiles one source. -/
def compileSource (session : Session) (source : Source) : Outcome :=
  let outcome := compileLines source.name 1 (session.openSource source.name) source.lines
  let closed :=
    match outcome.failure with
    | some _ => outcome
    | none =>
      { outcome with
        records := outcome.records ++ [compiledRecord source.name outcome.count] }
  closed.withRecord (sourceRecord source.name)

/-- Opening and closing a source only adds records. -/
theorem compileSource_eq_compileLines (session : Session) (source : Source) :
    let outcome := compileLines source.name 1 (session.openSource source.name) source.lines
    (compileSource session source).failure = outcome.failure ∧
      (compileSource session source).count = outcome.count ∧
      (compileSource session source).statements = outcome.statements ∧
      (compileSource session source).session = outcome.session := by
  unfold compileSource
  dsimp only [Outcome.withRecord]
  split <;> exact ⟨rfl, rfl, rfl, rfl⟩

/-- Compiles sources in order. -/
def compileSources (session : Session) : List Source → Outcome
  | [] => .start session
  | source :: rest =>
    (compileSource session source).andThen fun next => compileSources next rest

/-- Emits the start-up code. -/
def compileBootstrap (session : Session) : Outcome :=
  let records := bootstrapRecords session.stackBase
  match session.bootstrap with
  | (next, .error error) => { Outcome.failed next (.ofEmit error) with records }
  | (next, .ok statements) => ⟨next, 0, statements, records, none⟩

/-- Begins a program in a fresh session. -/
def compileStart (session : Session) (bootstrap : Bool) : Outcome :=
  if bootstrap then compileBootstrap session else .start session

/-- Compiles a program in a fresh session. -/
def compileIn (session : Session) (bootstrap : Bool) (sources : List Source) : Outcome :=
  (compileStart session bootstrap).andThen fun next => compileSources next sources

/-- How a program is compiled. -/
structure Settings where
  /-- The program begins with start-up code. -/
  bootstrap : Bool
  /-- Each block begins with a comment that shows its command. -/
  annotate : Bool
  /-- The first cell of the stack. -/
  stackBase : Int
  deriving DecidableEq, Repr

/-- The session in which a program is compiled. -/
def Settings.session (settings : Settings) : Session :=
  .fresh settings.annotate settings.stackBase

/-- Compiles a program. -/
def compile (settings : Settings) (sources : List Source) : Outcome :=
  compileIn settings.session settings.bootstrap sources

/-- The assembly text of a program. -/
def compileText (settings : Settings) (sources : List Source) : Except Failure String :=
  (compile settings sources).result

/-- A compiler that is used again and again.  It keeps the session and the number of commands of
its last run. -/
structure Compiler where
  bootstrap : Bool
  session : Session
  count : Nat
  deriving DecidableEq, Repr

namespace Compiler

/-- A compiler before its first run. -/
def ofSettings (settings : Settings) : Compiler :=
  ⟨settings.bootstrap, settings.session, 0⟩

/-- Compiles a program in the compiler's session, which starts over. -/
def run (compiler : Compiler) (sources : List Source) : Compiler × Except Failure String :=
  let outcome := compileIn compiler.session.reset compiler.bootstrap sources
  ({ compiler with session := outcome.session, count := outcome.count }, outcome.result)

end Compiler

end HackVm
