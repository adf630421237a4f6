import HackVm.Proofs.Building.Journals
import HackVm.Proofs.CommandLine.LogRefusal
import HackVm.Proofs.Logging.ReadBack

/-!
# Each run logs to its own file

Runs in one process share the loggers: what one run sets up, the next one finds.  A run sets up the
root logger with force, which takes the handlers of the run before away, and every record of the
program goes through the root logger.  So a log file holds what the runs that named it have logged,
and nothing of the runs between them, whatever levels their consoles had.

```text
account world argv      what a run is asked, where its records go, and its journal
accounts world runs     the accounts of runs that follow each other
```

`ran` says of one run that it does what its account tells, for a file that is not its output.  Along
a sequence of runs only `World.RootAlone` has to be kept, for a run asks no more of the loggers that
it finds (`own_log_files_only`).  That the file holds the records is told twice: as the bytes that
were written, and as the log lines that are read back from them.
-/

namespace HackVm

open Files Log World

/-- No logger is set up, except perhaps the root logger. -/
def World.RootAlone (world : World) : Prop :=
  ∀ name, knownAs name ≠ rootLogger → world.registry.get name = .unset (knownAs name)

/-- A process begins so. -/
theorem World.rootAlone_of_initial {world : World} (h : world.registry = .initial) :
    world.RootAlone := by
  intro name _
  have hclear : Registry.initial = Registry.initial.clear := by decide
  rw [h, hclear, Registry.get_clear]

namespace Cli

/-! ## Journals of runs -/

/-- A log file was opened. -/
def openedRecord (path : Path) : Record :=
  ⟨infoLevel, rootLogger, .logFileOpened, "Log file: " ++ path.text, none⟩

/-- The records that report a failure. -/
def failureRecords (host : Host) (arguments : Arguments) (failure : Failure) : List Record :=
  let verdict := classifyFailure failure
  errorRecord verdict.site (verdict.heading ++ failure.message) ::
    if verdict = .broken ∧ 0 < arguments.verbose then
      [traceRecord (host.trace arguments.stdout failure)]
    else []

/-- The journal of work that ended with a result. -/
def concluded {α : Type} (host : Host) (arguments : Arguments) (journal : Journal) :
    Except Failure α → Journal
  | .ok _ => journal
  | .error failure =>
    { journal with records := journal.records ++ failureRecords host arguments failure }

/-- The journal of a run after its logging was set up. -/
def workJournal (ready : World) (arguments : Arguments) : Journal :=
  match stackBaseOf arguments with
  | .error _ =>
    let text := arguments.stackBase.getD ""
    ⟨[errorRecord .stackBaseRefused ("Invalid --stack-base: " ++ text)], none⟩
  | .ok stackBase =>
    let request := requestOf arguments stackBase
    if arguments.stdout then
      concluded ready.host arguments (ready.previewJournal request) (ready.preview request).2
    else
      concluded ready.host arguments (ready.buildJournal request) (ready.build request).2

/-- The file that a path is opened as to be a log file. -/
def logFileAt? (world : World) (path : Path) : Option Location :=
  match world.tree.makeDirectories path.parent with
  | (tree, .ok ()) => (tree.openNew (tree.absolute path)).toOption
  | (_, .error _) => none

/-- What a run is asked, where its records go, and its journal. -/
structure Account where
  argv : List String
  sinks : Sinks
  journal : Journal
  deriving DecidableEq, Repr

/-- The account of a run that begins in a world. -/
def account (world : World) (argv : List String) : Account :=
  match Arguments.ofList world.host.keepsSeparator argv with
  | .error _ => ⟨argv, ⟨0, none⟩, ⟨[], none⟩⟩
  | .ok arguments =>
    let level := consoleLevel arguments.verbose
    let logFile := (given? arguments.logFile).map Path.ofString
    match world.setUpLogging rootLogger debugLevel level logFile true with
    | (_, .error _) => ⟨argv, ⟨level, none⟩, ⟨[], none⟩⟩
    | (ready, .ok ()) =>
      let journal := workJournal ready arguments
      ⟨argv, ⟨level, logFile.bind (logFileAt? world)⟩,
        { journal with records := logFile.toList.map openedRecord ++ journal.records }⟩

/-- Runs one after the other. -/
def runAll (world : World) (runs : List (List String)) : World :=
  runs.foldl (fun world argv => (run world argv).1) world

/-- The accounts of runs that follow each other. -/
def accounts (world : World) : List (List String) → List Account
  | [] => []
  | argv :: rest => account world argv :: accounts (run world argv).1 rest

/-! ## The work logs its journal -/

variable {world ready : World} {sinks : Sinks} {arguments : Arguments}

theorem ofProgram_errorRecord {site : Site} (hsite : site ∈ programSites) (message : String) :
    (errorRecord site message).OfProgram :=
  Record.ofProgram_mk (by decide) (by decide) hsite _ _

theorem site_classifyFailure (failure : Failure) :
    (classifyFailure failure).site ∈ programSites := by
  unfold classifyFailure
  split <;> decide

theorem logs_fail (h : ready.Ready sinks) (watched : Location) (arguments : Arguments)
    (failure : Failure) :
    Logs sinks watched ready (failureRecords ready.host arguments failure)
      (fail ready arguments failure).1 := by
  have hreport := h.logs_log watched (ofProgram_errorRecord (site_classifyFailure failure)
    ((classifyFailure failure).heading ++ failure.message))
  unfold failureRecords fail
  dsimp only
  split
  · refine hreport.trans (hreport.ready.logs_log watched ?_)
    exact Record.ofProgram_mk (by decide) (by decide) (by decide) _ _
  · exact hreport

section Concluded

variable {α : Type} {after : World} {watched : Location} {journal : Journal}

theorem output_concluded (host : Host) (arguments : Arguments) (journal : Journal)
    (result : Except Failure α) :
    (concluded host arguments journal result).output = journal.output := by
  cases result <;> rfl

theorem logs_concluded_ok (h : Logs sinks watched ready journal.records after)
    (arguments : Arguments) (value : α) :
    Logs sinks watched ready (concluded ready.host arguments journal (.ok value)).records after :=
  h

/-- Work that fails logs the failure last. -/
theorem logs_concluded_error (h : Logs sinks watched ready journal.records after)
    (arguments : Arguments) (failure : Failure) :
    Logs sinks watched ready
      (concluded ready.host arguments journal (.error failure : Except Failure α)).records
      (fail after arguments failure).1 := by
  rw [concluded, ← h.host]
  exact h.trans (logs_fail h.ready watched arguments failure)

end Concluded

section Run

variable {argv : List String}
  (hargv : Arguments.ofList world.host.keepsSeparator argv = .ok arguments)
  (hready : SetsUp world arguments ready) (h : ready.Ready sinks) {watched : Location}
include hargv hready h

/-- After its set-up a run logs the journal of its work. -/
theorem logs_run (houtput : (workJournal ready arguments).output ≠ some watched) :
    Logs sinks watched ready (workJournal ready arguments).records (run world argv).1 := by
  cases hbase : stackBaseOf arguments with
  | error refused =>
      rw [run_of_refused hargv hready hbase]
      simp only [workJournal, hbase]
      exact h.logs_log watched (ofProgram_errorRecord (by decide) _)
  | ok stackBase =>
      rw [run_of_stackBase hargv hready hbase]
      simp only [workJournal, hbase] at houtput ⊢
      unfold work
      dsimp only
      split at houtput
      · next hstdout =>
        rw [if_pos hstdout, if_pos hstdout]
        have hlogs := h.logs_preview watched (requestOf arguments stackBase)
        cases hpreview : ready.preview (requestOf arguments stackBase) with
        | mk after result =>
            rw [hpreview] at hlogs
            cases result with
            | ok text => exact logs_concluded_ok hlogs arguments text
            | error failure => exact logs_concluded_error hlogs arguments failure
      · next hstdout =>
        rw [if_neg hstdout, if_neg hstdout]
        rw [output_concluded] at houtput
        have hlogs := h.logs_build watched (requestOf arguments stackBase) houtput
        cases hbuild : ready.build (requestOf arguments stackBase) with
        | mk after result =>
            rw [hbuild] at hlogs
            cases result with
            | ok output => exact logs_concluded_ok hlogs arguments output
            | error failure => exact logs_concluded_error hlogs arguments failure

end Run

/-! ## The set-up -/

theorem logFileAt?_of_opens {path : Path} {tree : Tree} {location : Location}
    (hmade : world.tree.makeDirectories path.parent = (tree, .ok ()))
    (hopen : tree.openNew (tree.absolute path) = .ok location) :
    logFileAt? world path = some location := by
  simp only [logFileAt?, hmade, hopen]
  rfl

/-- The world in which a run logs its first record: the handlers are there, and the log file is,
with what it held before. -/
structure Prepared (world : World) (sinks : Sinks) (watched : Location) (prepared : World) :
    Prop where
  ready : prepared.Ready sinks
  time : prepared.time = world.time
  host : prepared.host = world.host
  console : prepared.console = world.console
  content : prepared.tree.content? watched =
    if sinks.logFile = some watched then some ((world.tree.content? watched).getD [])
    else world.tree.content? watched

theorem wired_withConsole (halone : world.RootAlone) (level : Int) :
    (world.withConsole rootLogger debugLevel level).registry.Wired ⟨level, none⟩ where
  root := Registry.get_set_self _ _ _
  others name hname := by
    rw [withConsole, Registry.get_set_of_ne _ (by simpa using hname), Registry.get_touch]
    exact halone name hname

/-- Without a log file there is nothing to prepare but the console. -/
theorem prepared_withConsole (halone : world.RootAlone) (level : Int) (watched : Location) :
    Prepared world ⟨level, none⟩ watched (world.withConsole rootLogger debugLevel level) where
  ready := ⟨wired_withConsole halone level, fun location hlocation => absurd hlocation (by simp)⟩
  time := rfl
  host := rfl
  console := rfl
  content := rfl

/-- The log file is opened to be continued. -/
theorem prepared_withLogFile (halone : world.RootAlone) (level : Int) (watched : Location)
    {path : Path} {tree : Tree} {location : Location}
    (hmade : world.tree.makeDirectories path.parent = (tree, .ok ()))
    (hopen : tree.openNew (tree.absolute path) = .ok location) :
    Prepared world ⟨level, some location⟩ watched
      ((world.withConsole rootLogger debugLevel level).withLogFile rootLogger tree location) := by
  have hwired := wired_withConsole halone level
  have hlocation := Tree.ne_nil_of_not_isDirectoryAt (Tree.openNew_eq_ok hopen).2
  have hkept : ∀ other, tree.content? other = world.tree.content? other := by
    intro other
    have hkept := world.tree.content?_makeDirectories path.parent other
    rwa [hmade] at hkept
  have hopened : (tree.append location []).content? location =
      some ((world.tree.content? location).getD []) := by
    rw [Tree.append, List.append_nil, Tree.content?_put_file _ hlocation, hkept]
  -- In turn: the root logger, the other loggers, the log file, and the watched file.
  refine ⟨⟨⟨?_, fun name hname => ?_⟩, ?_⟩, rfl, rfl, rfl, ?_⟩
  · rw [withLogFile, Registry.get_set_self, hwired.root]
    rfl
  · rw [withLogFile, Registry.get_set_of_ne _ (by simpa using hname)]
    exact hwired.others name hname
  · intro logFile hlogFile
    obtain rfl := Option.some.inj hlogFile
    exact congrArg Option.isSome hopened
  · change (tree.append location []).content? watched = _
    by_cases hsame : location = watched
    · subst hsame
      rw [if_pos rfl, hopened]
    · rw [if_neg (fun hsome => hsame (Option.some.inj hsome)), Tree.append,
        Tree.content?_put_of_ne _ (Ne.symm hsame), hkept]

/-- A set-up prepares the world and then logs the path of the log file, if there is one. -/
theorem SetsUp.exists_prepared (hready : SetsUp world arguments ready) (halone : world.RootAlone)
    (watched : Location) :
    let logFile := (given? arguments.logFile).map Path.ofString
    let sinks : Sinks := ⟨consoleLevel arguments.verbose, logFile.bind (logFileAt? world)⟩
    ∃ prepared, Prepared world sinks watched prepared ∧
      Logs sinks watched prepared (logFile.toList.map openedRecord) ready := by
  intro logFile sinks
  have hsetUp : world.setUp (setUpCall arguments) = (ready, .ok ()) := hready
  have hends := world.setUp_ends (setUpCall arguments)
  rw [hsetUp] at hends
  cases hends with
  | kept hkeeps => exact absurd hkeeps.1 (by simp [setUpCall])
  | console _ hfile =>
      have hprepared := prepared_withConsole halone (consoleLevel arguments.verbose) watched
      have hnone : logFile = none := hfile
      simp only [sinks, hnone]
      exact ⟨_, hprepared, .refl hprepared.ready⟩
  | @opened path tree location record _ hfile hmade hopen hrecord =>
      have hprepared :=
        prepared_withLogFile halone (consoleLevel arguments.verbose) watched hmade hopen
      have hsome : logFile = some path := hfile
      simp only [sinks, hsome, Option.bind_some, logFileAt?_of_opens hmade hopen]
      refine ⟨_, hprepared, ?_⟩
      rw [hrecord]
      exact hprepared.ready.logs_log watched
        (Record.ofProgram_mk (by decide) (by decide) (by decide) _ _)

/-! ## One run -/

/-- A run has done what its account tells, as far as it can be seen on the console and in one
file. -/
structure Ran (world : World) (account : Account) (watched : Location) (after : World) : Prop where
  ofProgram : ∀ record ∈ account.journal.records, record.OfProgram
  alone : after.RootAlone
  time : after.time = world.time
  host : after.host = world.host
  console : after.console = world.console ++ account.sinks.shown account.journal.records
  content : after.tree.content? watched =
    if account.sinks.logFile = some watched then
      some ((world.tree.content? watched).getD [] ++ logLines world.time account.journal.records)
    else world.tree.content? watched

/-- A run that logs nothing. -/
theorem Ran.of_silent {after : World} (argv : List String) (level : Int) (watched : Location)
    (halone : after.RootAlone) (htime : after.time = world.time) (hhost : after.host = world.host)
    (hconsole : after.console = world.console)
    (hcontent : after.tree.content? watched = world.tree.content? watched) :
    Ran world ⟨argv, ⟨level, none⟩, ⟨[], none⟩⟩ watched after where
  ofProgram := by simp
  alone := halone
  time := htime
  host := hhost
  console := hconsole.trans (List.append_nil _).symm
  content := hcontent

/-- A run that logs its journal from the prepared world on. -/
theorem Ran.of_logs {prepared after : World} {watched : Location} {journal : Journal}
    (hprepared : Prepared world sinks watched prepared)
    (hlogs : Logs sinks watched prepared journal.records after) (argv : List String) :
    Ran world ⟨argv, sinks, journal⟩ watched after where
  ofProgram := hlogs.ofProgram
  alone := hlogs.ready.wired.others
  time := hlogs.time.trans hprepared.time
  host := hlogs.host.trans hprepared.host
  console := by rw [hlogs.console, hprepared.console]
  content := by
    rw [hlogs.content, hprepared.content, hprepared.time]
    split <;> rfl

theorem account_of_setsUp {argv : List String}
    (hargv : Arguments.ofList world.host.keepsSeparator argv = .ok arguments)
    (hready : SetsUp world arguments ready) :
    let logFile := (given? arguments.logFile).map Path.ofString
    let journal := workJournal ready arguments
    account world argv =
      ⟨argv, ⟨consoleLevel arguments.verbose, logFile.bind (logFileAt? world)⟩,
        { journal with records := logFile.toList.map openedRecord ++ journal.records }⟩ := by
  unfold SetsUp at hready
  simp only [account, hargv, hready]

theorem account_of_logRefused {argv : List String}
    (hargv : Arguments.ofList world.host.keepsSeparator argv = .ok arguments)
    {left : Tree} {error : FileError} (hlog : LogRefused world arguments left error) :
    account world argv = ⟨argv, ⟨consoleLevel arguments.verbose, none⟩, ⟨[], none⟩⟩ := by
  obtain ⟨text, htext, hrefuses⟩ := hlog
  simp only [account, hargv, htext, Option.map_some, setUpLogging_of_refuses hrefuses]

/-- Every run does what its account tells, in a file that is not its output. -/
theorem ran {argv : List String} {watched : Location} (halone : world.RootAlone)
    (houtput : (account world argv).journal.output ≠ some watched) :
    Ran world (account world argv) watched (run world argv).1 := by
  cases hargv : Arguments.ofList world.host.keepsSeparator argv with
  | error ending =>
      simp only [account, run, hargv]
      exact .of_silent argv 0 watched halone rfl rfl rfl rfl
  | ok arguments =>
      rcases setsUp_or_refused world arguments with ⟨ready, hready⟩ | ⟨left, error, hlog⟩
      · obtain ⟨prepared, hprepared, hopened⟩ := hready.exists_prepared halone watched
        rw [account_of_setsUp hargv hready] at houtput ⊢
        exact .of_logs hprepared (hopened.trans (logs_run hargv hready hopened.ready houtput)) argv
      · rw [account_of_logRefused hargv hlog, run_of_logRefused hargv hlog]
        obtain ⟨text, -, hrefuses⟩ := hlog
        exact .of_silent argv _ watched (wired_withConsole halone _).others rfl rfl rfl
          (hrefuses.content?_eq watched)

theorem argv_account (world : World) (argv : List String) : (account world argv).argv = argv := by
  unfold account
  dsimp only
  split
  · rfl
  · split <;> rfl

/-- A run with a log file begins its journal with the path of it. -/
theorem head?_records_account {argv : List String} {location : Location}
    (h : (account world argv).sinks.logFile = some location) :
    ∃ arguments text, Arguments.ofList world.host.keepsSeparator argv = .ok arguments ∧
      given? arguments.logFile = some text ∧
      (account world argv).journal.records.head? = some (openedRecord (.ofString text)) := by
  cases hargv : Arguments.ofList world.host.keepsSeparator argv with
  | error ending => simp [account, hargv] at h
  | ok arguments =>
      rcases setsUp_or_refused world arguments with ⟨ready, hready⟩ | ⟨left, error, hlog⟩
      · rw [account_of_setsUp hargv hready] at h ⊢
        cases htext : given? arguments.logFile with
        | none => simp [htext] at h
        | some text => exact ⟨arguments, text, rfl, htext, rfl⟩
      · rw [account_of_logRefused hargv hlog] at h
        exact absurd h (by simp)

/-! ## Runs that follow each other -/

/-- Run after run has done what its account tells. -/
inductive RanAll (watched : Location) : World → List Account → World → Prop
  | nil (world : World) : RanAll watched world [] world
  | cons {world between after : World} {account : Account} {rest : List Account}
      (hran : Ran world account watched between) (hrest : RanAll watched between rest after) :
      RanAll watched world (account :: rest) after

theorem ranAll {watched : Location} {runs : List (List String)} (halone : world.RootAlone)
    (houtputs : ∀ account ∈ accounts world runs, account.journal.output ≠ some watched) :
    RanAll watched world (accounts world runs) (runAll world runs) := by
  induction runs generalizing world with
  | nil => exact .nil world
  | cons argv rest ih =>
      obtain ⟨hfirst, hrest⟩ := List.forall_mem_cons.mp houtputs
      have hran := ran halone hfirst
      exact .cons hran (ih hran.alone hrest)

namespace RanAll

variable {watched : Location} {list : List Account} {after : World}

theorem ofProgram (h : RanAll watched world list after) :
    ∀ account ∈ list, ∀ record ∈ account.journal.records, record.OfProgram := by
  induction h with
  | nil world => exact fun account hmem => absurd hmem List.not_mem_nil
  | cons hran _ ih => exact List.forall_mem_cons.mpr ⟨hran.ofProgram, ih⟩

theorem console (h : RanAll watched world list after) :
    after.console = world.console ++
      list.flatMap fun account => account.sinks.shown account.journal.records := by
  induction h with
  | nil world => exact (List.append_nil _).symm
  | cons hran _ ih => rw [ih, hran.console, List.append_assoc, List.flatMap_cons]

/-- The file takes the records of the runs that have it as their log file. -/
theorem content (h : RanAll watched world list after) :
    let own := list.filter fun account => account.sinks.logFile = some watched
    after.tree.content? watched =
      if own = [] then world.tree.content? watched
      else some ((world.tree.content? watched).getD [] ++
        logLines world.time (own.flatMap fun account => account.journal.records)) := by
  induction h with
  | nil world => rfl
  | @cons world between after account rest hran _ ih =>
      dsimp only at ih ⊢
      rw [ih, hran.content, hran.time]
      by_cases hown : account.sinks.logFile = some watched
      · rw [List.filter_cons_of_pos (by simpa using hown), if_pos hown,
          if_neg (List.cons_ne_nil _ _), List.flatMap_cons, logLines_append, ← List.append_assoc]
        -- The file is there after the first run, whether others follow that have it or not.
        split
        · next hnone => simp [hnone, logLines]
        · rfl
      · rw [List.filter_cons_of_neg (by simpa using hown), if_neg hown]

end RanAll

theorem argv_accounts (world : World) (runs : List (List String)) :
    (accounts world runs).map Account.argv = runs := by
  induction runs generalizing world with
  | nil => rfl
  | cons argv rest ih => rw [accounts, List.map_cons, argv_account, ih]

/-- Every account is that of a run, which has the same host as the first. -/
theorem exists_of_mem_accounts {watched : Location} {runs : List (List String)} {entry : Account}
    (halone : world.RootAlone)
    (houtputs : ∀ account ∈ accounts world runs, account.journal.output ≠ some watched)
    (h : entry ∈ accounts world runs) :
    ∃ between argv, between.host = world.host ∧ entry = account between argv := by
  induction runs generalizing world with
  | nil => exact absurd h List.not_mem_nil
  | cons argv rest ih =>
      obtain ⟨hfirst, hlater⟩ := List.forall_mem_cons.mp houtputs
      rcases List.mem_cons.mp h with hentry | hrest
      · exact ⟨world, argv, rfl, hentry⟩
      · have hran := ran halone hfirst
        obtain ⟨between, later, hhost, hentry⟩ := ih hran.alone hlater hrest
        exact ⟨between, later, hhost.trans hran.host, hentry⟩

/-- In one process, a log file holds the records of the runs that it was the log file of, run after
run and each record once, and no others.  If the file is new, they are read back from its bytes, of
each record its line.  The records of such a run begin with the path of the file, and all of them
come from the program.  The console has shown the same records, those of each run as far as its
level goes. -/
theorem own_log_files_only (world : World) (runs : List (List String)) (watched : Location)
    (halone : world.RootAlone)
    (houtputs : ∀ account ∈ accounts world runs, account.journal.output ≠ some watched) :
    let own := (accounts world runs).filter fun account => account.sinks.logFile = some watched
    let records := own.flatMap fun account => account.journal.records
    (accounts world runs).map Account.argv = runs ∧
    (runAll world runs).tree.content? watched =
      (if own = [] then world.tree.content? watched
        else some ((world.tree.content? watched).getD [] ++ logLines world.time records)) ∧
    (IsTime world.time → world.tree.content? watched = none → own ≠ [] →
      ∃ content text, (runAll world runs).tree.content? watched = some content ∧
        Text.decode content = .ok text ∧
        LogLine.allOfText text = records.flatMap Record.inLog ∧
        ((∀ record ∈ records, '\n' ∉ record.message.toList ∧ record.details = none) →
          LogLine.allOfText text = records.map Record.toLogLine)) ∧
    (∀ account ∈ own, ∃ arguments text,
      Arguments.ofList world.host.keepsSeparator account.argv = .ok arguments ∧
      given? arguments.logFile = some text ∧
      account.journal.records.head? = some (openedRecord (.ofString text))) ∧
    (∀ account ∈ accounts world runs, ∀ record ∈ account.journal.records, record.OfProgram) ∧
    (runAll world runs).console = world.console ++
      (accounts world runs).flatMap fun account => account.sinks.shown account.journal.records := by
  intro own records
  have hran := ranAll halone houtputs
  have hcontent : (runAll world runs).tree.content? watched =
      if own = [] then world.tree.content? watched
      else some ((world.tree.content? watched).getD [] ++ logLines world.time records) :=
    hran.content
  refine ⟨argv_accounts world runs, hcontent, ?_, ?_, hran.ofProgram, hran.console⟩
  · intro htime hnew hown
    rw [if_neg hown, hnew, Option.getD_none, List.nil_append, logLines_eq_encode] at hcontent
    have hrecords : ∀ record ∈ records, record.OfProgram := by
      intro record hrecord
      obtain ⟨entry, hentry, hmem⟩ := List.mem_flatMap.mp hrecord
      exact hran.ofProgram entry (List.mem_filter.mp hentry).1 record hmem
    have hread := allOfText_logText htime hrecords
    refine ⟨_, _, hcontent, Text.decode_encode _, hread, fun hlines => hread.trans ?_⟩
    rw [List.map_eq_flatMap]
    refine List.flatMap_congr fun record hrecord => ?_
    exact Record.inLog_of_singleLine (hlines record hrecord).1 (hlines record hrecord).2
  · intro entry hentry
    obtain ⟨hmem, hfile⟩ := List.mem_filter.mp hentry
    obtain ⟨between, argv, hhost, rfl⟩ := exists_of_mem_accounts halone houtputs hmem
    rw [argv_account, ← hhost]
    exact head?_records_account (by simpa using hfile)

private def processSample : World :=
  ⟨⟨[(["Main.vm"], .file (Text.encode "add")), (["Bad.vm"], .file [255])], []⟩, .initial, [],
    "2000-01-01 00:00:00", { trace := fun _ failure => "Traceback:\n  main\n" ++ failure.message }⟩

private def runsSample : List (List String) :=
  [["Main.vm", "--stack-base", "?", "--log-file", "a.log"],
    ["Main.vm", "-vv", "--stdout", "--log-file", "b.log"],
    ["Bad.vm", "-v", "--stdout", "--log-file", "./a.log"]]

/-- The third run goes on with the log file of the first, and has nothing to do with that of the
second.  It fails, and of what it tells in full the log lines are read. -/
theorem own_log_files_only_sample :
    let line := fun level logger message => (⟨level, loggerBelow logger, message⟩ : LogLine)
    let fault := "'utf-8' codec can't decode byte 0xff in position 0: invalid start byte"
    ∃ content text, (runAll processSample runsSample).tree.content? ["a.log"] = some content ∧
      Text.decode content = .ok text ∧
      LogLine.allOfText text =
        [⟨"INFO", rootLogger, "Log file: a.log"⟩, line "ERROR" "cli" "Invalid --stack-base: ?",
          ⟨"INFO", rootLogger, "Log file: a.log"⟩,
          line "ERROR" "cli" ("Internal translator error: " ++ fault),
          line "ERROR" "cli" "Traceback"] := by
  intro line fault
  have halone : processSample.RootAlone := rootAlone_of_initial rfl
  have houtputs : ∀ account ∈ accounts processSample runsSample,
      account.journal.output ≠ some ["a.log"] := by decide +kernel
  obtain ⟨-, -, hread, -⟩ := own_log_files_only processSample runsSample ["a.log"] halone houtputs
  obtain ⟨content, text, hcontent, htext, hlines, -⟩ :=
    hread (by decide +kernel) (by decide +kernel) (by decide +kernel)
  refine ⟨content, text, hcontent, htext, hlines.trans ?_⟩
  decide +kernel

end Cli

end HackVm
