import HackVm.Cli.Run
import HackVm.Proofs.Building.Requests

/-!
# Exit codes

A run whose arguments were read and whose logging was set up goes through stages, and its exit code
tells how far it came:

```text
stack base     refused                                        1
discovery      no input, no sources                           1
compilation    a file that the system refuses                 1
               a malformed line, a refused command            1
               a file that is no text, a number too long      2
opening        a file that the system refuses                 1
writing        a file that takes a part of the text only      1 or 2
all of them succeed                                           0
```

`WorkPasses` and `WorkFails` give the stages after the first one.  One of them always holds
(`work_passes_or_fails`), and each determines how the work ends (`WorkPasses.work_ends`,
`WorkFails.work_ends`).  Up to the opening of its output a run only logs, so a run that fails has
changed no file but log files and an output that fell short (`exit_code_classifies`).
-/

namespace HackVm

open Files Log World

/-- A fault in what the user gave: the input, a line, a command, or a file that the system
refuses. -/
def Failure.isUsers : Failure → Bool
  | .input _ => true
  | .malformed _ => true
  | .refused _ => true
  | .file (.system _ _) => true
  | .file .nulInPath => false
  | .file (.notText _) => false
  | .file (.unwritten (.system _ _)) => true
  | .file (.unwritten (.other _)) => false
  | .number _ => false

namespace Cli

/-! ## The stages -/

/-- The world in which the files are compiled.  The input is logged before, unless the text is only
shown. -/
def begun (world : World) (arguments : Arguments) (paths : List Path) : World :=
  if arguments.stdout then world
  else world.log (inputRecord (.ofString arguments.input) paths.length)

/-- Discovery and compilation succeed. -/
inductive Compiles (world : World) (arguments : Arguments) (stackBase : Int) (text : String)
    (compiled : World) : Prop
  | intro {paths : List Path} {settings : Settings} {sources : List Source}
      (hfinds : (requestOf arguments stackBase).Finds world.tree paths settings)
      (hcompiles : CompilationPasses (begun world arguments paths) settings paths sources text
        compiled) : Compiles world arguments stackBase text compiled

/-- Discovery and compilation succeed and, unless the text is only shown, its output is opened and
takes the text. -/
inductive WorkPasses (world : World) (arguments : Arguments) (stackBase : Int) : Prop
  | intro {text : String} {compiled : World}
      (hcompiles : Compiles world arguments stackBase text compiled)
      (hwrites : arguments.stdout = false → ∃ output location,
        (requestOf arguments stackBase).WritesTo world.tree output ∧
        compiled.tree.openNew output = .ok location ∧
        compiled.host.shortfall? location (Text.encode text) = none) :
      WorkPasses world arguments stackBase

/-- The output is opened at the location, and takes a part of the text only. -/
inductive FallsShort (world : World) (arguments : Arguments) (stackBase : Int)
    (location : Location) : WriteFault → Prop
  | intro {text : String} {compiled : World} {output : Path} {shortfall : Shortfall}
      (hstdout : arguments.stdout = false)
      (hcompiles : Compiles world arguments stackBase text compiled)
      (houtput : (requestOf arguments stackBase).WritesTo world.tree output)
      (hopen : compiled.tree.openNew output = .ok location)
      (hshort : compiled.host.shortfall? location (Text.encode text) = some shortfall) :
      FallsShort world arguments stackBase location shortfall.fault

/-- The first stage that fails, and its failure. -/
inductive WorkFails (world : World) (arguments : Arguments) (stackBase : Int) : Failure → Prop
  | discovery {error : DiscoverError}
      (hdiscover : world.tree.discover (requestOf arguments stackBase).input = .error error) :
      WorkFails world arguments stackBase (.ofDiscover error)
  | compilation {paths : List Path} {settings : Settings} {failure : Failure}
      (hfinds : (requestOf arguments stackBase).Finds world.tree paths settings)
      (hfails : CompilationFails (begun world arguments paths) settings paths failure) :
      WorkFails world arguments stackBase failure
  | opening {text : String} {compiled : World} {output : Path} {error : FileError}
      (hstdout : arguments.stdout = false)
      (hcompiles : Compiles world arguments stackBase text compiled)
      (houtput : (requestOf arguments stackBase).WritesTo world.tree output)
      (hopen : compiled.tree.openNew output = .error error) :
      WorkFails world arguments stackBase (.file error)
  | writing {location : Location} {fault : WriteFault}
      (hshort : FallsShort world arguments stackBase location fault) :
      WorkFails world arguments stackBase (.file (.unwritten fault))

variable {world ready : World} {arguments : Arguments} {stackBase : Int} {failure : Failure}

theorem work_passes_or_fails (world : World) (arguments : Arguments) (stackBase : Int) :
    WorkPasses world arguments stackBase ∨
      ∃ failure, WorkFails world arguments stackBase failure := by
  cases hdiscover : world.tree.discover (requestOf arguments stackBase).input with
  | error error => exact .inr ⟨_, .discovery hdiscover⟩
  | ok paths =>
      obtain ⟨⟨settings, hfinds⟩, output, houtput⟩ := Request.finds_of_discover hdiscover
      rcases compilation_passes_or_fails (begun world arguments paths) settings paths with
        ⟨sources, text, compiled, hpasses⟩ | ⟨failure, hfails⟩
      · have hcompiles : Compiles world arguments stackBase text compiled := .intro hfinds hpasses
        cases hstdout : arguments.stdout with
        | true =>
            exact .inl (.intro hcompiles fun hfile => absurd (hstdout.symm.trans hfile) (by simp))
        | false =>
            cases hopen : compiled.tree.openNew output with
            | error error => exact .inr ⟨_, .opening hstdout hcompiles houtput hopen⟩
            | ok location =>
                cases hshort : compiled.host.shortfall? location (Text.encode text) with
                | none => exact .inl (.intro hcompiles fun _ => ⟨_, _, houtput, hopen, hshort⟩)
                | some shortfall =>
                    exact .inr ⟨_, .writing (.intro hstdout hcompiles houtput hopen hshort)⟩
      · exact .inr ⟨failure, .compilation hfinds hfails⟩

/-! ## The end of a run -/

/-- How the work ends with the text that it prints, or with a failure. -/
def endOf : Except Failure String → Ended
  | .ok stdout => .exit 0 stdout
  | .error failure => .exit (if failure.isUsers then 1 else 2) ""

/-- A failure ends a run, and is only logged. -/
theorem fail_ends (world : World) (arguments : Arguments) (failure : Failure) :
    (fail world arguments failure).2 = endOf (.error failure) ∧
      OnlyLogged world (fail world arguments failure).1 := by
  unfold fail
  dsimp only
  constructor
  · cases failure with
    | file error =>
        cases error with
        | unwritten fault => cases fault <;> rfl
        | _ => rfl
    | _ => rfl
  · split
    · exact (onlyLogged_log _ _).trans (onlyLogged_log _ _)
    · exact onlyLogged_log _ _

/-- Work that shows its text ends as the preview does, and is only logged. -/
theorem work_shown (world : World) (stackBase : Int) (hstdout : arguments.stdout = true) :
    (work world arguments stackBase).2 =
        endOf (world.preview (requestOf arguments stackBase)).2 ∧
      OnlyLogged world (work world arguments stackBase).1 := by
  have honly := onlyLogged_preview world (requestOf arguments stackBase)
  unfold work
  simp only [hstdout, if_true]
  cases hpreview : world.preview (requestOf arguments stackBase) with
  | mk after result =>
      rw [hpreview] at honly
      cases result with
      | ok text => exact ⟨rfl, honly⟩
      | error failure =>
          obtain ⟨hend, hlogged⟩ := fail_ends after arguments failure
          exact ⟨hend, honly.trans hlogged⟩

/-- Work that writes its text ends as the build does, and only logs after it. -/
theorem work_written (world : World) (stackBase : Int) (hstdout : arguments.stdout = false) :
    let built := world.build (requestOf arguments stackBase)
    (work world arguments stackBase).2 = endOf (built.2.map fun output => output.text ++ "\n") ∧
      (∀ output, built.2 = .ok output → (work world arguments stackBase).1 = built.1) ∧
      OnlyLogged built.1 (work world arguments stackBase).1 := by
  intro built
  unfold work
  simp only [hstdout, Bool.false_eq_true, if_false]
  cases hbuilt : world.build (requestOf arguments stackBase) with
  | mk after result =>
      have hbuilt' : built = (after, result) := hbuilt
      rw [hbuilt']
      cases result with
      | ok output => exact ⟨rfl, fun _ _ => rfl, .refl after⟩
      | error failure =>
          obtain ⟨hend, hlogged⟩ := fail_ends after arguments failure
          exact ⟨hend, fun output hok => absurd hok (by simp), hlogged⟩

namespace Compiles

variable {text : String} {compiled : World}

theorem preview_eq (h : Compiles world arguments stackBase text compiled)
    (hstdout : arguments.stdout = true) :
    world.preview (requestOf arguments stackBase) = (compiled, .ok text) := by
  obtain ⟨hfinds, hpasses⟩ := h
  have hok := hpasses.compileFiles_eq
  rw [begun, if_pos hstdout] at hok
  rw [preview_of_finds hfinds, hok]

theorem exists_compileFiles_eq (h : Compiles world arguments stackBase text compiled)
    (hstdout : arguments.stdout = false) :
    ∃ paths settings, (requestOf arguments stackBase).Finds world.tree paths settings ∧
      (world.log (inputRecord (requestOf arguments stackBase).input paths.length)).compileFiles
        settings paths = (compiled, .ok text) := by
  obtain ⟨hfinds, hpasses⟩ := h
  have hok := hpasses.compileFiles_eq
  rw [begun, if_neg (by simp [hstdout])] at hok
  exact ⟨_, _, hfinds, hok⟩

end Compiles

/-- A build that fails has logged, and then written to its output only if that fell short. -/
theorem WorkFails.build_ends (h : WorkFails world arguments stackBase failure)
    (hstdout : arguments.stdout = false) :
    ∃ compiled after, world.build (requestOf arguments stackBase) = (after, .error failure) ∧
      OnlyLogged world compiled ∧ after.registry = compiled.registry ∧
      compiled.tree.KeepsFiles after.tree fun location =>
        ∃ fault, FallsShort world arguments stackBase location fault := by
  cases h with
  | discovery hdiscover =>
      exact ⟨_, _, (BuildEnds.undiscovered hdiscover).build_eq, .refl world, rfl, .refl _ _⟩
  | @compilation paths settings _ hfinds hfails =>
      have herror := hfails.compileFiles_eq
      rw [begun, if_neg (by simp [hstdout])] at herror
      have hcompile :
          (world.log (inputRecord (.ofString arguments.input) paths.length)).compileFiles
            settings paths = (_, .error failure) := Prod.ext rfl herror
      exact ⟨_, _, (BuildEnds.uncompiled hfinds hcompile).build_eq,
        (logged_of_compileFiles hcompile).onlyLogged, rfl, .refl _ _⟩
  | opening _ hcompiles houtput hopen =>
      obtain ⟨paths, settings, hfinds, hcompile⟩ := hcompiles.exists_compileFiles_eq hstdout
      exact ⟨_, _, (BuildEnds.unopened hfinds houtput hcompile hopen).build_eq,
        (logged_of_compileFiles hcompile).onlyLogged, rfl, .refl _ _⟩
  | writing hshort =>
      obtain ⟨-, hcompiles, houtput, hopen, hfault⟩ := id hshort
      obtain ⟨paths, settings, hfinds, hcompile⟩ := hcompiles.exists_compileFiles_eq hstdout
      refine ⟨_, _, (BuildEnds.short hfinds houtput hcompile hopen hfault).build_eq,
        (logged_of_compileFiles hcompile).onlyLogged, rfl, ?_⟩
      exact (Tree.keepsFiles_put _ _ _).mono fun other hother => hother ▸ ⟨_, hshort⟩

/-- Where a stage fails, the run ends with its failure.  By then it has changed no file but log
files and an output that fell short. -/
theorem WorkFails.work_ends (h : WorkFails world arguments stackBase failure) :
    (work world arguments stackBase).2 = endOf (.error failure) ∧
      world.tree.KeepsFiles (work world arguments stackBase).1.tree fun location =>
        world.registry.LogsTo location ∨
          ∃ fault, FallsShort world arguments stackBase location fault := by
  cases hstdout : arguments.stdout with
  | true =>
      have hpreview : (world.preview (requestOf arguments stackBase)).2 = .error failure := by
        cases h with
        | discovery hdiscover => rw [preview_of_undiscovered hdiscover]
        | compilation hfinds hfails =>
            have herror := hfails.compileFiles_eq
            rw [begun, if_pos hstdout] at herror
            rw [preview_of_finds hfinds, herror]
        | opening hfile => exact absurd (hstdout.symm.trans hfile) (by simp)
        | writing hshort =>
            obtain ⟨hfile⟩ := hshort
            exact absurd (hstdout.symm.trans hfile) (by simp)
      obtain ⟨hend, honly⟩ := work_shown world stackBase hstdout
      rw [hpreview] at hend
      exact ⟨hend, honly.files.mono fun _ => .inl⟩
  | false =>
      obtain ⟨compiled, after, hbuilt, honly, hregistry, hkept⟩ := h.build_ends hstdout
      obtain ⟨hend, -, hlast⟩ := work_written world stackBase hstdout
      rw [hbuilt] at hend hlast
      have hlogs : ∀ location, after.registry.LogsTo location → world.registry.LogsTo location := by
        intro location hlocation
        rw [hregistry] at hlocation
        exact honly.logsTo_iff.mp hlocation
      refine ⟨hend, (honly.files.mono fun _ => .inl).trans ((hkept.mono fun _ => .inr).trans ?_)⟩
      exact hlast.files.mono fun location hlocation => .inl (hlogs location hlocation)

/-- Where all stages succeed, the run ends with code zero. -/
theorem WorkPasses.work_ends (h : WorkPasses world arguments stackBase) :
    ∃ stdout, (work world arguments stackBase).2 = .exit 0 stdout := by
  obtain ⟨hcompiles, hwrites⟩ := h
  cases hstdout : arguments.stdout with
  | true =>
      obtain ⟨hend, -⟩ := work_shown world stackBase hstdout
      rw [hcompiles.preview_eq hstdout] at hend
      exact ⟨_, hend⟩
  | false =>
      obtain ⟨paths, settings, hfinds, hcompile⟩ := hcompiles.exists_compileFiles_eq hstdout
      obtain ⟨output, location, houtput, hopen, hfull⟩ := hwrites hstdout
      obtain ⟨hend, -, -⟩ := work_written world stackBase hstdout
      rw [(BuildEnds.written hfinds houtput hcompile hopen hfull).build_eq] at hend
      exact ⟨_, hend⟩

/-- What fails does not pass. -/
theorem WorkFails.not_passes (h : WorkFails world arguments stackBase failure) :
    ¬ WorkPasses world arguments stackBase := by
  intro hpass
  obtain ⟨stdout, hpassed⟩ := hpass.work_ends
  obtain ⟨hcode, -⟩ := Ended.exit.inj (hpassed.symm.trans h.work_ends.1)
  split at hcode <;> omega

/-- The work fails in one way only, as far as the exit code can tell. -/
theorem WorkFails.isUsers_eq {other : Failure} (h : WorkFails world arguments stackBase failure)
    (hother : WorkFails world arguments stackBase other) : other.isUsers = failure.isUsers := by
  obtain ⟨hcode, -⟩ := Ended.exit.inj (hother.work_ends.1.symm.trans h.work_ends.1)
  cases hkind : failure.isUsers <;> cases hkind' : other.isUsers <;> simp [hkind, hkind'] at hcode ⊢

/-- The exit code and the stages of the work determine each other. -/
theorem work_classified (world : World) (arguments : Arguments) (stackBase : Int) :
    ∃ code stdout, (work world arguments stackBase).2 = .exit code stdout ∧ code ≤ 2 ∧
      (code = 0 ↔ WorkPasses world arguments stackBase) ∧
      (code = 1 ↔ ∃ failure, WorkFails world arguments stackBase failure ∧
        failure.isUsers = true) ∧
      (code = 2 ↔ ∃ failure, WorkFails world arguments stackBase failure ∧
        failure.isUsers = false) ∧
      (code ≠ 0 → stdout = "" ∧
        world.tree.KeepsFiles (work world arguments stackBase).1.tree fun location =>
          world.registry.LogsTo location ∨
            ∃ fault, FallsShort world arguments stackBase location fault) := by
  rcases work_passes_or_fails world arguments stackBase with hpass | ⟨failure, hfail⟩
  · obtain ⟨stdout, hexit⟩ := hpass.work_ends
    have hnone : ∀ failure, ¬ WorkFails world arguments stackBase failure :=
      fun failure hfail => hfail.not_passes hpass
    refine ⟨0, stdout, hexit, by omega, ?_, ?_, ?_, ?_⟩
    · simp [hpass]
    · simp [hnone]
    · simp [hnone]
    · exact fun hnonzero => absurd rfl hnonzero
  · obtain ⟨hexit, hkept⟩ := hfail.work_ends
    have hkinds : ∀ users, (∃ other, WorkFails world arguments stackBase other ∧
        other.isUsers = users) ↔ failure.isUsers = users := by
      intro users
      constructor
      · rintro ⟨other, hother, rfl⟩
        exact (hfail.isUsers_eq hother).symm
      · exact fun hkind => ⟨failure, hfail, hkind⟩
    refine ⟨_, "", hexit, ?_, ?_, ?_, ?_, fun _ => ⟨rfl, hkept⟩⟩
    · split <;> omega
    · simp only [hfail.not_passes, iff_false]
      split <;> omega
    · rw [hkinds]
      cases failure.isUsers <;> simp
    · rw [hkinds]
      cases failure.isUsers <;> simp

theorem eq_some_of_given? {option : Option String} {text : String} (h : given? option = some text) :
    option = some text :=
  (Option.filter_eq_some_iff.mp h).1

/-! ## Classification -/

/-- The files that a run may log to: the log file that it was asked for, and those of loggers that
had one before and that it does not set up itself. -/
def IsLogFile (world : World) (arguments : Arguments) (location : Location) : Prop :=
  world.registry.LogsBeside rootLogger location ∨
    ∃ text, given? arguments.logFile = some text ∧ world.OpensLog (.ofString text) location

/-- The set-up of logging with which a run begins. -/
def SetsUp (world : World) (arguments : Arguments) (ready : World) : Prop :=
  world.setUpLogging rootLogger debugLevel (consoleLevel arguments.verbose)
    ((given? arguments.logFile).map Path.ofString) true = (ready, .ok ())

/-- The log files after the set-up are those that the run may log to. -/
theorem SetsUp.isLogFile (h : SetsUp world arguments ready) {location : Location}
    (hlogs : ready.registry.LogsTo location) : IsLogFile world arguments location := by
  rcases logsTo_of_setUpLogging h hlogs with hbeside | ⟨path, hpath, hopens⟩
  · exact .inl hbeside
  · obtain ⟨text, htext, rfl⟩ := Option.map_eq_some_iff.mp hpath
    exact .inr ⟨text, htext, hopens⟩

/-- What keeps the files after the set-up keeps those before it, log files apart. -/
theorem SetsUp.keepsFiles (h : SetsUp world arguments ready) {after : World}
    {changed : Location → Prop}
    (hkept : ready.tree.KeepsFiles after.tree fun location =>
      ready.registry.LogsTo location ∨ changed location) :
    world.tree.KeepsFiles after.tree fun location =>
      IsLogFile world arguments location ∨ changed location := by
  refine (((keepsFiles_setUpLogging h).mono fun _ => .inl).trans hkept).mono ?_
  exact fun location => Or.imp_left h.isLogFile

section Run

variable {argv : List String}
  (hargv : Arguments.ofList world.host.keepsSeparator argv = .ok arguments)
  (hready : SetsUp world arguments ready)
include hargv hready

theorem run_of_stackBase (h : stackBaseOf arguments = .ok stackBase) :
    run world argv = work ready arguments stackBase := by
  unfold SetsUp at hready
  simp only [run, hargv, runWith, hready, h]

theorem run_of_refused {error : Text.NumberError} (h : stackBaseOf arguments = .error error) :
    run world argv =
      (ready.log (errorRecord .stackBaseRefused
        ("Invalid --stack-base: " ++ arguments.stackBase.getD "")), .exit 1 "") := by
  unfold SetsUp at hready
  simp only [run, hargv, runWith, hready, h]

end Run

/-- Every run whose arguments are read and whose logging is set up ends with an exit code.  A stack
base that cannot be read gives 1 before anything else is looked at.  Otherwise the code is 0 when
all stages succeed, and the first one that fails decides between 1 and 2.  A run that does not end
with 0 prints nothing and changes no file but log files, and its output if that was opened and took
a part of the text only. -/
theorem exit_code_classifies (world ready : World) (argv : List String) (arguments : Arguments)
    (hargv : Arguments.ofList world.host.keepsSeparator argv = .ok arguments)
    (hready : SetsUp world arguments ready) :
    ∃ code stdout, (run world argv).2 = .exit code stdout ∧ code ≤ 2 ∧
      (∀ text error, given? arguments.stackBase = some text →
        Text.readNotation text = .error error → code = 1 ∧
        (run world argv).1 =
          ready.log (errorRecord .stackBaseRefused ("Invalid --stack-base: " ++ text))) ∧
      (∀ stackBase, stackBaseOf arguments = .ok stackBase →
        (code = 0 ↔ WorkPasses ready arguments stackBase) ∧
        (code = 1 ↔ ∃ failure, WorkFails ready arguments stackBase failure ∧
          failure.isUsers = true) ∧
        (code = 2 ↔ ∃ failure, WorkFails ready arguments stackBase failure ∧
          failure.isUsers = false)) ∧
      (code ≠ 0 → stdout = "" ∧
        world.tree.KeepsFiles (run world argv).1.tree fun location =>
          IsLogFile world arguments location ∨ ∃ stackBase fault,
            stackBaseOf arguments = .ok stackBase ∧
            FallsShort ready arguments stackBase location fault) := by
  cases hbase : stackBaseOf arguments with
  | error refused =>
      have hrun := run_of_refused hargv hready hbase
      rw [hrun]
      refine ⟨1, "", rfl, by omega, fun text error hgiven _ => ⟨rfl, ?_⟩, ?_, fun _ => ⟨rfl, ?_⟩⟩
      · rw [eq_some_of_given? hgiven, Option.getD_some]
      · exact fun stackBase hok => absurd hok (by simp)
      · exact hready.keepsFiles ((onlyLogged_log _ _).files.mono fun _ => .inl)
  | ok stackBase =>
      have hread : ∀ text error, given? arguments.stackBase = some text →
          Text.readNotation text ≠ .error error := by
        intro text error hgiven herror
        simp only [stackBaseOf, hgiven, herror] at hbase
        exact absurd hbase (by simp)
      rw [run_of_stackBase hargv hready hbase]
      obtain ⟨code, stdout, hexit, hle, hzero, hone, htwo, hnonzero⟩ :=
        work_classified ready arguments stackBase
      refine ⟨code, stdout, hexit, hle, ?_, ?_, fun hcode => ?_⟩
      · exact fun text error hgiven herror => absurd herror (hread text error hgiven)
      · intro other hother
        obtain rfl := Except.ok.inj hother
        exact ⟨hzero, hone, htwo⟩
      · obtain ⟨hstdout, hkept⟩ := hnonzero hcode
        refine ⟨hstdout, hready.keepsFiles (hkept.mono ?_)⟩
        exact fun location => Or.imp_right fun ⟨fault, hshort⟩ => ⟨stackBase, fault, rfl, hshort⟩

/-- A source that is no text ends the run with code 2.  The log file is there afterwards, the source
as it was, and no output. -/
theorem exit_code_classifies_sample :
    let world : World := ⟨⟨[(["Main.vm"], .file [255])], []⟩, .initial, [], "", {}⟩
    let argv := ["Main.vm", "--log-file", "run.log"]
    let arguments : Arguments := ⟨"Main.vm", none, none, false, none, false, 0, some "run.log"⟩
    let ready := (world.setUpLogging rootLogger debugLevel warningLevel
      (some (.ofString "run.log")) true).1
    Arguments.ofList true argv = .ok arguments ∧ SetsUp world arguments ready ∧
      (run world argv).2 = .exit 2 "" ∧
      (∃ failure, WorkFails ready arguments 256 failure ∧ failure.isUsers = false) ∧
      world.tree.KeepsFiles (run world argv).1.tree fun location =>
        IsLogFile world arguments location ∨ ∃ stackBase fault,
          stackBaseOf arguments = .ok stackBase ∧
          FallsShort ready arguments stackBase location fault := by
  intro world argv arguments ready
  have hargv : Arguments.ofList true argv = .ok arguments := by decide +kernel
  have hready : SetsUp world arguments ready := by
    have hok : (world.setUpLogging rootLogger debugLevel warningLevel
        (some (.ofString "run.log")) true).2 = .ok () := by decide +kernel
    exact Prod.ext rfl hok
  have hrun : (run world argv).2 = .exit 2 "" := by decide +kernel
  obtain ⟨code, stdout, hexit, -, -, hcodes, hkept⟩ :=
    exit_code_classifies world ready argv arguments hargv hready
  obtain ⟨rfl, rfl⟩ := Ended.exit.inj (hexit.symm.trans hrun)
  obtain ⟨-, -, htwo⟩ := hcodes 256 rfl
  exact ⟨hargv, hready, hrun, htwo.mp rfl, (hkept (by omega)).2⟩

/-- Other loggers that have log files write to them when a run fails.  And a run that fails because
its output takes nothing of the text leaves it empty. -/
theorem failed_run_changes_files :
    let logging := ((⟨⟨[], []⟩, .initial, [], "", {}⟩ : World).setUpLogging commandLineLogger
      debugLevel warningLevel (some (.ofString "t.log")) false).1
    let missing := run logging ["Missing.vm"]
    let full : Host := { shortfall? := fun _ _ => some ⟨0, .system 28 "No space left on device"⟩ }
    let disk : World := ⟨⟨[(["Main.vm"], .file (Text.encode "add\n")),
      (["Main.asm"], .file (Text.encode "@SP\n"))], []⟩, .initial, [], "", full⟩
    let short := run disk ["Main.vm"]
    (missing.2 = .exit 1 "" ∧
      missing.1.tree.content? ["t.log"] ≠ logging.tree.content? ["t.log"]) ∧
    short.2 = .exit 1 "" ∧ disk.tree.content? ["Main.asm"] = some (Text.encode "@SP\n") ∧
      short.1.tree.content? ["Main.asm"] = some [] := by
  decide +kernel

end Cli

end HackVm
