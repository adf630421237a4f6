import HackVm.Proofs.Logging.Delivery
import Mathlib.Control.Monad.Basic

/-!
# Calls that set up loggers

A call gives a logger its level and a console handler, and only then opens the log file.  There are
four ways for it to end:

```text
kept      the logger has handlers and force is not used: nothing is done
console   no log file is asked for
refused   the log file cannot be opened
opened    the log file is opened, and its path is the first record in it
```

A refused call has replaced the logger that was there.  What it leaves behind looks like a logger
that was set up without a log file, so calls without force do not finish its work, however many of
them follow (`failed_setup_leaves_console`).
-/

namespace HackVm

open Files Log

/-- A call that sets up a logger. -/
structure SetUpCall where
  name : String
  level : Int
  consoleLevel : Int
  logFile : Option Path
  force : Bool
  deriving DecidableEq, Repr

/-- A path cannot be opened as a log file: a directory above it cannot be made, or it cannot be
opened itself.  In the tree that is left some directories may have been made. -/
inductive Files.Tree.RefusesLog (tree : Tree) (path : Path) : Tree → FileError → Prop
  | directories {left : Tree} {error : FileError}
      (hmade : tree.makeDirectories path.parent = (left, .error error)) :
      RefusesLog tree path left error
  | opening {left : Tree} {error : FileError}
      (hmade : tree.makeDirectories path.parent = (left, .ok ()))
      (hopen : left.openNew (left.absolute path) = .error error) : RefusesLog tree path left error

/-- A refusal changes no file. -/
theorem Files.Tree.RefusesLog.content?_eq {tree left : Tree} {path : Path} {error : FileError}
    (h : tree.RefusesLog path left error) (location : Location) :
    left.content? location = tree.content? location := by
  have hkept := tree.content?_makeDirectories path.parent location
  cases h with
  | directories hmade => rwa [hmade] at hkept
  | opening hmade => rwa [hmade] at hkept

namespace World

/-- Makes a call. -/
def setUp (world : World) (call : SetUpCall) : World × Except FileError Unit :=
  world.setUpLogging call.name call.level call.consoleLevel call.logFile call.force

/-- Makes calls one after the other, whether they succeed or not. -/
def setUpAll (world : World) (calls : List SetUpCall) : World :=
  calls.foldl (fun world call => (world.setUp call).1) world

/-! ## How a call ends -/

/-- The call leaves its logger alone. -/
def Keeps (world : World) (call : SetUpCall) : Prop :=
  call.force = false ∧ (world.registry.get call.name).handlers ≠ []

/-- The ways in which a call ends. -/
inductive SetUpEnds (world : World) (call : SetUpCall) : World → Except FileError Unit → Prop
  | kept (hkeeps : world.Keeps call) :
      SetUpEnds world call { world with registry := world.registry.touch call.name } (.ok ())
  | console (hnew : ¬ world.Keeps call) (hfile : call.logFile = none) :
      SetUpEnds world call (world.withConsole call.name call.level call.consoleLevel) (.ok ())
  | refused {path : Path} {left : Tree} {error : FileError} (hnew : ¬ world.Keeps call)
      (hfile : call.logFile = some path) (hrefuses : world.tree.RefusesLog path left error) :
      SetUpEnds world call
        { world.withConsole call.name call.level call.consoleLevel with tree := left }
        (.error error)
  | opened {path : Path} {tree : Tree} {location : Location} {record : Record}
      (hnew : ¬ world.Keeps call) (hfile : call.logFile = some path)
      (hmade : world.tree.makeDirectories path.parent = (tree, .ok ()))
      (hopen : tree.openNew (tree.absolute path) = .ok location)
      (hrecord : record =
        ⟨infoLevel, knownAs call.name, .logFileOpened, "Log file: " ++ path.text, none⟩) :
      SetUpEnds world call
        (((world.withConsole call.name call.level call.consoleLevel).withLogFile call.name tree
          location).log record) (.ok ())

variable {world after : World} {call : SetUpCall} {name : String}
  {result : Except FileError Unit} {error : FileError}

/-- A call ends in one of these ways. -/
theorem setUp_ends (world : World) (call : SetUpCall) :
    SetUpEnds world call (world.setUp call).1 (world.setUp call).2 := by
  unfold setUp setUpLogging
  dsimp only
  split
  · next hguard =>
    refine .kept ?_
    simpa [Keeps, and_comm] using hguard
  · next hguard =>
    have hnew : ¬ world.Keeps call := by
      simpa [Keeps, and_comm] using hguard
    cases hfile : call.logFile with
    | none => exact .console hnew hfile
    | some path =>
        dsimp only
        unfold addLogFile
        split
        · next hmade => exact .refused hnew hfile (.directories hmade)
        · next tree hmade =>
          split
          · next hopen => exact .refused hnew hfile (.opening hmade hopen)
          · next hopen => exact .opened hnew hfile hmade hopen rfl

/-- A log file that is refused fails a forced call. -/
theorem setUpLogging_of_refuses {path : Path} {left : Tree} {level consoleLevel : Int}
    (h : world.tree.RefusesLog path left error) :
    world.setUpLogging name level consoleLevel (some path) true =
      ({ world.withConsole name level consoleLevel with tree := left }, .error error) := by
  -- The path is looked at in the tree as it was, for the console handler is no file.
  have hsame : (world.withConsole name level consoleLevel).tree = world.tree := rfl
  rw [setUpLogging_force]
  cases h with
  | directories hmade => simp only [addLogFile, hsame, hmade]
  | opening hmade hopen => simp only [addLogFile, hsame, hmade, hopen]

namespace SetUpEnds

/-- Other loggers stay as they are. -/
theorem get_of_ne (h : SetUpEnds world call after result)
    (hname : knownAs name ≠ knownAs call.name) :
    after.registry.get name = world.registry.get name := by
  have hconsole : (world.withConsole call.name call.level call.consoleLevel).registry.get name =
      world.registry.get name := by
    rw [withConsole, Registry.get_set_of_ne _ hname, Registry.get_touch]
  cases h with
  | kept => exact Registry.get_touch _ _ _
  | console => exact hconsole
  | refused => exact hconsole
  | opened =>
      rw [(onlyLogged_log _ _).loggers, withLogFile, Registry.get_set_of_ne _ hname]
      exact hconsole

theorem get_of_keeps (h : SetUpEnds world call after result) (hkeeps : world.Keeps call) :
    after.registry.get call.name = world.registry.get call.name := by
  cases h with
  | kept => exact Registry.get_touch _ _ _
  | console hnew => exact absurd hkeeps hnew
  | refused hnew => exact absurd hkeeps hnew
  | opened hnew => exact absurd hkeeps hnew

/-- A call fails only for its log file. -/
theorem refuses_of_error (h : SetUpEnds world call after (.error error)) :
    ¬ world.Keeps call ∧
      ∃ path, call.logFile = some path ∧ world.tree.RefusesLog path after.tree error := by
  cases h with
  | refused hnew hfile hrefuses => exact ⟨hnew, _, hfile, hrefuses⟩

/-- By then its logger has been replaced. -/
theorem get_of_error (h : SetUpEnds world call after (.error error)) :
    after.registry.get call.name = ⟨call.level, [.console call.consoleLevel]⟩ := by
  cases h with
  | refused => exact Registry.get_set_self _ _ _

/-- A call that does not leave its logger alone and succeeds gives it all that was asked for. -/
theorem get_of_ok {path : Path} (h : SetUpEnds world call after (.ok ()))
    (hnew : ¬ world.Keeps call) (hfile : call.logFile = some path) :
    ∃ location, world.OpensLog path location ∧
      after.registry.get call.name =
        ⟨call.level, [.console call.consoleLevel, .file debugLevel location]⟩ := by
  cases h with
  | kept hkeeps => exact absurd hkeeps hnew
  | console _ hnone => exact absurd (hfile.symm.trans hnone) (by simp)
  | @opened opened tree location _ _ hsome hmade hopen =>
      obtain rfl := Option.some.inj (hfile.symm.trans hsome)
      refine ⟨location, ⟨tree, hmade, hopen⟩, ?_⟩
      rw [(onlyLogged_log _ _).loggers, withLogFile, Registry.get_set_self, withConsole,
        Registry.get_set_self]
      rfl

end SetUpEnds

/-! ## Calls that follow -/

/-- A logger with handlers is not changed by a call without force. -/
theorem get_setUp_of_handlers (hhandlers : (world.registry.get name).handlers ≠ [])
    (hforce : knownAs call.name = knownAs name → call.force = false) :
    (world.setUp call).1.registry.get name = world.registry.get name := by
  have hends := world.setUp_ends call
  by_cases hname : knownAs name = knownAs call.name
  · rw [Registry.get_congr _ hname] at hhandlers
    rw [Registry.get_congr _ hname, Registry.get_congr _ hname]
    exact hends.get_of_keeps ⟨hforce hname.symm, hhandlers⟩
  · exact hends.get_of_ne hname

/-- Nor by any number of them, whatever happens to other loggers meanwhile. -/
theorem get_setUpAll_of_handlers {calls : List SetUpCall}
    (hhandlers : (world.registry.get name).handlers ≠ [])
    (hforce : ∀ call ∈ calls, knownAs call.name = knownAs name → call.force = false) :
    (world.setUpAll calls).registry.get name = world.registry.get name := by
  induction calls generalizing world with
  | nil => rfl
  | cons call rest ih =>
      have hcall := get_setUp_of_handlers hhandlers (hforce call (List.mem_cons_self ..))
      have hrest := fun other hother => hforce other (List.mem_cons_of_mem _ hother)
      rw [setUpAll, List.foldl_cons]
      exact (ih (hcall ▸ hhandlers) hrest).trans hcall

/-- A call fails only if it does not leave its logger alone and its log file is refused.  By then it
has replaced the logger by one with a console handler alone, so nothing has changed only if that is
the logger there was before.  Further calls without force do not change it, whatever log files they
name, and a forced one that succeeds gives it its log file. -/
theorem failed_setup_leaves_console (world : World) (call : SetUpCall) (error : FileError)
    (h : (world.setUp call).2 = .error error) :
    let after := (world.setUp call).1
    let left : Logger := ⟨call.level, [.console call.consoleLevel]⟩
    (call.force = true ∨ (world.registry.get call.name).handlers = []) ∧
    (∃ path, call.logFile = some path ∧ world.tree.RefusesLog path after.tree error) ∧
    after.registry.get call.name = left ∧
    (after.registry.get call.name = world.registry.get call.name ↔
      world.registry.get call.name = left) ∧
    (∀ name, knownAs name ≠ knownAs call.name →
      after.registry.get name = world.registry.get name) ∧
    ∀ calls : List SetUpCall,
      (∀ other ∈ calls, knownAs other.name = knownAs call.name → other.force = false) →
      (after.setUpAll calls).registry.get call.name = left ∧
      ∀ again path, knownAs again.name = knownAs call.name → again.force = true →
        again.logFile = some path →
        ((after.setUpAll calls).setUp again).2 = .ok () →
        ∃ location, (after.setUpAll calls).OpensLog path location ∧
          ((after.setUpAll calls).setUp again).1.registry.get call.name =
            ⟨again.level, [.console again.consoleLevel, .file debugLevel location]⟩ := by
  intro after left
  have hends := world.setUp_ends call
  rw [h] at hends
  obtain ⟨hnew, hfile⟩ := hends.refuses_of_error
  have hleft : after.registry.get call.name = left := hends.get_of_error
  refine ⟨?_, hfile, hleft, ?_, fun name hname => hends.get_of_ne hname,
    fun calls hcalls => ⟨?_, ?_⟩⟩
  · simpa [Keeps, or_iff_not_imp_left] using hnew
  · rw [hleft]
    exact eq_comm
  · have hhandlers : (after.registry.get call.name).handlers ≠ [] := by
      rw [hleft]
      exact List.cons_ne_nil _ _
    exact (get_setUpAll_of_handlers hhandlers hcalls).trans hleft
  · intro again path hname hforce hagain hok
    have hends := (after.setUpAll calls).setUp_ends again
    rw [hok] at hends
    rw [← Registry.get_congr _ hname]
    exact hends.get_of_ok (fun hkeeps => absurd (hforce.symm.trans hkeeps.1) (by simp)) hagain

private def directorySample : World :=
  ⟨⟨[(["d"], .directory)], []⟩, .initial, [], "", {}⟩

private def callSample (path : String) (force : Bool) : SetUpCall :=
  ⟨loggerBelow "t", debugLevel, warningLevel, some (.ofString path), force⟩

/-- A forced call that fails takes away the log file that the logger had. -/
theorem failed_setup_leaves_console_sample :
    let world := (directorySample.setUp (callSample "run.log" false)).1
    let after := (world.setUp (callSample "d" true)).1
    (world.registry.get (loggerBelow "t")).handlers =
        [.console warningLevel, .file debugLevel ["run.log"]] ∧
      (world.setUp (callSample "d" true)).2 = .error (.system .isDirectory ⟨"/", ["d"]⟩) ∧
      (after.registry.get (loggerBelow "t")).handlers = [.console warningLevel] ∧
      ((after.setUpAll [callSample "run.log" false]).registry.get (loggerBelow "t")).handlers =
        [.console warningLevel] := by
  intro world after
  have hbefore : (world.registry.get (loggerBelow "t")).handlers =
      [.console warningLevel, .file debugLevel ["run.log"]] := by decide +kernel
  have herror : (world.setUp (callSample "d" true)).2 =
      .error (.system .isDirectory ⟨"/", ["d"]⟩) := by decide +kernel
  obtain ⟨-, -, hleft, -, -, hlater⟩ := failed_setup_leaves_console world _ _ herror
  obtain ⟨hstays, -⟩ := hlater [callSample "run.log" false] (by decide)
  exact ⟨hbefore, herror, congrArg Logger.handlers hleft, congrArg Logger.handlers hstays⟩

/-- A logger without handlers has one after a call that failed.  So a second call, whose log file
could be opened, does not open it. -/
theorem failed_setup_changes_logger :
    let failed := directorySample.setUp (callSample "d" false)
    let second := failed.1.setUp (callSample "ok.log" false)
    directorySample.registry.get (loggerBelow "t") = ⟨0, []⟩ ∧
      failed.2 = .error (.system .isDirectory ⟨"/", ["d"]⟩) ∧
      failed.1.registry.get (loggerBelow "t") ≠ directorySample.registry.get (loggerBelow "t") ∧
      second.2 = .ok () ∧
      (second.1.registry.get (loggerBelow "t")).handlers = [.console warningLevel] ∧
      second.1.tree.content? ["ok.log"] = none := by
  decide +kernel

end World

end HackVm
