import HackVm.Proofs.CommandLine.ExitCodes
import HackVm.Proofs.Logging.SetUp

/-!
# Runs without an exit code

A run turns its failures into exit codes, but it sets up logging before it does so.  Of the three
paths that a run can be given, the system may refuse each:

```text
input, output     exit code 1
log file          no exit code: the run breaks off with the error
```

So a run whose arguments are read has an exit code exactly when its log file, if there is one, can
be opened (`exit_code_unless_log_refused`).
-/

namespace HackVm.Cli

open Files Log World

variable {world ready : World} {arguments : Arguments} {argv : List String}

/-- The call with which a run sets up logging. -/
def setUpCall (arguments : Arguments) : SetUpCall where
  name := rootLogger
  level := debugLevel
  consoleLevel := consoleLevel arguments.verbose
  logFile := (given? arguments.logFile).map Path.ofString
  force := true

/-- An error of the system: a path is refused, or a file takes a part of what is written only. -/
inductive IsSystems : FileError → Prop
  | refused (cause : Cause) (path : Path) : IsSystems (.system cause path)
  | unwritten (code : Nat) (wording : String) : IsSystems (.unwritten (.system code wording))

theorem IsSystems.isUsers {error : FileError} (h : IsSystems error) :
    (Failure.file error).isUsers = true := by
  cases h <;> rfl

/-- The log file of the arguments is refused. -/
def LogRefused (world : World) (arguments : Arguments) (left : Tree) (error : FileError) : Prop :=
  ∃ text, given? arguments.logFile = some text ∧
    world.tree.RefusesLog (.ofString text) left error

/-- The set-up with which a run begins succeeds, or the log file is refused. -/
theorem setsUp_or_refused (world : World) (arguments : Arguments) :
    (∃ ready, SetsUp world arguments ready) ∨
      ∃ left error, LogRefused world arguments left error := by
  have hends := world.setUp_ends (setUpCall arguments)
  cases hresult : (world.setUp (setUpCall arguments)).2 with
  | ok => exact .inl ⟨_, Prod.ext rfl hresult⟩
  | error error =>
      rw [hresult] at hends
      obtain ⟨-, path, hpath, hrefuses⟩ := hends.refuses_of_error
      obtain ⟨text, htext, rfl⟩ := Option.map_eq_some_iff.mp hpath
      exact .inr ⟨_, error, text, htext, hrefuses⟩

section Run

variable (hargv : Arguments.ofList world.host.keepsSeparator argv = .ok arguments)
include hargv

/-- A run whose log file is refused ends there. -/
theorem run_of_logRefused {left : Tree} {error : FileError}
    (h : LogRefused world arguments left error) :
    run world argv =
      ({ world.withConsole rootLogger debugLevel (consoleLevel arguments.verbose) with
          tree := left }, .broken error) := by
  obtain ⟨text, htext, hrefuses⟩ := h
  simp only [run, hargv, runWith, htext, Option.map_some, setUpLogging_of_refuses hrefuses]

/-- A run whose logging is set up has an exit code, and it is 1 for a file that the system
refuses. -/
theorem exit_of_setsUp (hready : SetsUp world arguments ready) :
    ∃ code stdout, (run world argv).2 = .exit code stdout ∧ code ≤ 2 ∧
      ∀ stackBase error, stackBaseOf arguments = .ok stackBase → IsSystems error →
        WorkFails ready arguments stackBase (.file error) → code = 1 := by
  cases hbase : stackBaseOf arguments with
  | error refused =>
      rw [run_of_refused hargv hready hbase]
      exact ⟨1, "", rfl, by omega, fun _ _ _ _ _ => rfl⟩
  | ok stackBase =>
      rw [run_of_stackBase hargv hready hbase]
      obtain ⟨code, stdout, hexit, hle, -, hone, -⟩ := work_classified ready arguments stackBase
      refine ⟨code, stdout, hexit, hle, fun other error hother hsystem hfails => ?_⟩
      obtain rfl := Except.ok.inj hother
      exact hone.mpr ⟨_, hfails, hsystem.isUsers⟩

end Run

/-- A run whose arguments are read breaks off exactly when its log file is refused.  Then it has
shown nothing and changed no file.  Every other run has an exit code of at most 2, which is 1 where
the work fails for a file that the system refuses, be it the input or the output. -/
theorem exit_code_unless_log_refused (world : World) (argv : List String) (arguments : Arguments)
    (hargv : Arguments.ofList world.host.keepsSeparator argv = .ok arguments) :
    (∀ error, (run world argv).2 = .broken error ↔
      ∃ left, LogRefused world arguments left error) ∧
    (∀ error, (run world argv).2 = .broken error →
      (run world argv).1.console = world.console ∧
      ∀ location, (run world argv).1.tree.content? location = world.tree.content? location) ∧
    ((∀ error, (run world argv).2 ≠ .broken error) →
      ∃ ready code stdout, SetsUp world arguments ready ∧
        (run world argv).2 = .exit code stdout ∧ code ≤ 2 ∧
        ∀ stackBase error, stackBaseOf arguments = .ok stackBase → IsSystems error →
          WorkFails ready arguments stackBase (.file error) → code = 1) := by
  have hrefused : ∀ error, (run world argv).2 = .broken error →
      ∃ left, LogRefused world arguments left error := by
    intro error hbroken
    rcases setsUp_or_refused world arguments with ⟨ready, hready⟩ | ⟨left, other, hlog⟩
    · obtain ⟨code, stdout, hexit, -⟩ := exit_of_setsUp hargv hready
      exact absurd (hbroken.symm.trans hexit) (by simp)
    · rw [run_of_logRefused hargv hlog] at hbroken
      obtain rfl := Ended.broken.inj hbroken
      exact ⟨left, hlog⟩
  refine ⟨fun error => ⟨hrefused error, ?_⟩, fun error hbroken => ?_, fun hnever => ?_⟩
  · rintro ⟨left, hlog⟩
    rw [run_of_logRefused hargv hlog]
  · obtain ⟨left, hlog⟩ := hrefused error hbroken
    rw [run_of_logRefused hargv hlog]
    obtain ⟨text, -, hrefuses⟩ := hlog
    exact ⟨rfl, hrefuses.content?_eq⟩
  · rcases setsUp_or_refused world arguments with ⟨ready, hready⟩ | ⟨left, error, hlog⟩
    · obtain ⟨code, stdout, hexit⟩ := exit_of_setsUp hargv hready
      exact ⟨ready, code, stdout, hready, hexit⟩
    · rw [run_of_logRefused hargv hlog] at hnever
      exact absurd rfl (hnever error)

private def sourceSample : World :=
  ⟨⟨[(["Main.vm"], .file (Text.encode "push constant 7\n")), (["d"], .directory)], []⟩,
    .initial, [], "", {}⟩

/-- A log file that is a directory breaks the run off.  Without it there is an exit code, and the
output may be the same directory. -/
theorem exit_code_unless_log_refused_sample :
    let refused := ["Main.vm", "-o", "d", "--log-file", "d"]
    let accepted := ["Main.vm", "-o", "d"]
    (run sourceSample refused).2 = .broken (.system .isDirectory ⟨"/", ["d"]⟩) ∧
      (run sourceSample refused).1.console = [] ∧
      (∃ code stdout, (run sourceSample accepted).2 = .exit code stdout ∧ code ≤ 2) ∧
      (run sourceSample accepted).2 = .exit 1 "" := by
  intro refused accepted
  have hrefused : Arguments.ofList true refused =
      .ok ⟨"Main.vm", some "d", none, false, none, false, 0, some "d"⟩ := by decide +kernel
  have haccepted : Arguments.ofList true accepted =
      .ok ⟨"Main.vm", some "d", none, false, none, false, 0, none⟩ := by decide +kernel
  have hlog : sourceSample.tree.RefusesLog (.ofString "d") sourceSample.tree
      (.system .isDirectory ⟨"/", ["d"]⟩) := .opening (by decide +kernel) (by decide +kernel)
  obtain ⟨hiff, hkept, -⟩ := exit_code_unless_log_refused sourceSample refused _ hrefused
  have hbroken := (hiff _).mpr ⟨_, "d", by decide, hlog⟩
  obtain ⟨hnone, -, hexit⟩ := exit_code_unless_log_refused sourceSample accepted _ haccepted
  obtain ⟨ready, code, stdout, -, hcode, hle, -⟩ := hexit fun error hbroken => by
    obtain ⟨left, text, htext, -⟩ := (hnone error).mp hbroken
    exact absurd htext (by simp [given?])
  exact ⟨hbroken, (hkept _ hbroken).1, ⟨code, stdout, hcode, hle⟩, by decide +kernel⟩

/-- A log file below a plain file lets the error of the system escape, and there is no exit code. -/
theorem log_refusal_escapes :
    let argv := ["Main.vm", "--log-file", "Main.vm/x.log"]
    Arguments.ofList true argv =
        .ok ⟨"Main.vm", none, none, false, none, false, 0, some "Main.vm/x.log"⟩ ∧
      (run sourceSample argv).2 = .broken (.system .alreadyExists ⟨"", ["Main.vm"]⟩) ∧
      ∀ code stdout, (run sourceSample argv).2 ≠ .exit code stdout := by
  intro argv
  have hbroken : (run sourceSample argv).2 =
      .broken (.system .alreadyExists ⟨"", ["Main.vm"]⟩) := by decide +kernel
  refine ⟨by decide +kernel, hbroken, fun code stdout => ?_⟩
  rw [hbroken]
  simp

end HackVm.Cli
