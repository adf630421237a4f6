import HackVm.Proofs.CommandLine.ExitCodes

/-!
# What is shown is what would be written

A run that shows the text of an input and a run that writes it to a file are two ways through the
program.  They look for the sources, choose the settings and log at different moments, and only one
of them names its output.  Without log files none of that makes a difference to the text
(`build_agrees_with_preview`), so for arguments that ask for the same text the two runs agree:
the same exit code, and on success the printed text is the content of the file
(`shown_text_is_written`).
-/

namespace HackVm.Cli

open Files Log World

/-- The arguments ask for the same text, be it shown or written. -/
structure SameText (first second : Arguments) : Prop where
  input : second.input = first.input
  bootstrap : second.bootstrap = first.bootstrap
  annotate : second.annotate = first.annotate
  stackBase : second.stackBase = first.stackBase

namespace SameText

variable {first second : Arguments}

theorem stackBaseOf_eq (h : SameText first second) : stackBaseOf second = stackBaseOf first := by
  rw [stackBaseOf, stackBaseOf, h.stackBase]

/-- The requests differ in their outputs only. -/
theorem requestOf_eq (h : SameText first second) {text : String}
    (houtput : given? second.output = some text) (stackBase : Int) :
    requestOf second stackBase =
      { requestOf first stackBase with output := some (.ofString text) } := by
  simp only [requestOf, houtput, h.input, h.bootstrap, h.annotate, Option.map_some]

end SameText

/-- Without a log file, logging is set up on the console alone. -/
theorem exists_setsUp {arguments : Arguments} (world : World)
    (hlogFile : given? arguments.logFile = none)
    (hbeside : ∀ location, ¬ world.registry.LogsBeside rootLogger location) :
    ∃ ready, SetsUp world arguments ready ∧ ready.Quiet ∧ ready.tree = world.tree ∧
      ready.host = world.host := by
  refine ⟨world.withConsole rootLogger debugLevel (consoleLevel arguments.verbose), ?_, ?_, rfl,
    rfl⟩
  · rw [SetsUp, hlogFile, setUpLogging_force]
    rfl
  · exact fun location hlogs => hbeside location (logsTo_of_withConsole hlogs)

/-- A new file in an existing directory can be opened. -/
theorem openNew_of_free {tree : Tree} {path : Path} {location : Location}
    (hnew : tree.locateNew path = .ok location) (hfree : tree.entryAt location = none) :
    tree.openNew path = .ok location := by
  simp [Tree.openNew, hnew, Tree.isDirectoryAt, hfree]

/-- A run that shows its text and a run that writes the same text to a new file, which takes it, end
with the same exit code.  On success the file holds what the other run prints, and the run that
prints changes no file in any case. -/
theorem shown_text_is_written (world : World) (shownArgv writtenArgv : List String)
    (shown written : Arguments)
    (hshown : Arguments.ofList world.host.keepsSeparator shownArgv = .ok shown)
    (hwritten : Arguments.ofList world.host.keepsSeparator writtenArgv = .ok written)
    (hstdout : shown.stdout = true) (hfile : written.stdout = false)
    (hsame : SameText shown written)
    (hlogShown : given? shown.logFile = none) (hlogWritten : given? written.logFile = none)
    (hbeside : ∀ location, ¬ world.registry.LogsBeside rootLogger location) (text : String)
    (houtput : given? written.output = some text) (location : Location)
    (hnew : world.tree.locateNew (.ofString text) = .ok location)
    (hfree : world.tree.entryAt location = none)
    (htakes : ∀ content, world.host.shortfall? location content = none) :
    ∃ code printed note, (run world shownArgv).2 = .exit code printed ∧
      (run world writtenArgv).2 = .exit code note ∧
      (code = 0 → (run world writtenArgv).1.tree.read (.ofString text) =
        .ok (Text.encode printed)) ∧
      (run world shownArgv).1.tree = world.tree := by
  obtain ⟨ready, hready, hquiet, htree, -⟩ := exists_setsUp world hlogShown hbeside
  obtain ⟨other, hother, hquiet', htree', hhost⟩ := exists_setsUp world hlogWritten hbeside
  cases hbase : stackBaseOf shown with
  | error refused =>
      rw [run_of_refused hshown hready hbase,
        run_of_refused hwritten hother (hsame.stackBaseOf_eq.trans hbase)]
      refine ⟨1, "", "", rfl, rfl, by omega, ?_⟩
      exact ((onlyLogged_log _ _).tree_eq hquiet).trans htree
  | ok stackBase =>
      rw [run_of_stackBase hshown hready hbase,
        run_of_stackBase hwritten hother (hsame.stackBaseOf_eq.trans hbase)]
      have hopen : ready.tree.openNew (.ofString text) = .ok location := by
        rw [htree]
        exact openNew_of_free hnew hfree
      have hagree := build_agrees_with_preview (requestOf shown stackBase) hquiet hquiet'
        (htree'.trans htree.symm) hopen (hhost ▸ htakes)
      rw [← hsame.requestOf_eq houtput stackBase] at hagree
      obtain ⟨hresult, hread⟩ := hagree
      obtain ⟨hend, honly⟩ := work_shown ready stackBase hstdout
      obtain ⟨hend', hkept, -⟩ := work_written other stackBase hfile
      rw [hresult] at hend' hkept
      have hunchanged := (honly.tree_eq hquiet).trans htree
      cases hpreview : (ready.preview (requestOf shown stackBase)).2 with
      | error failure =>
          rw [hpreview] at hend hend'
          refine ⟨_, "", "", hend, hend', fun hzero => ?_, hunchanged⟩
          split at hzero <;> omega
      | ok printed =>
          rw [hpreview] at hend hend' hkept
          refine ⟨0, printed, _, hend, hend', fun _ => ?_, hunchanged⟩
          rw [hkept _ rfl]
          exact hread printed hpreview

/-- One source file with start-up code and a stack base of its own, shown and written. -/
theorem shown_text_is_written_sample :
    let world := World.closeLogging
      ⟨⟨[(["Main.vm"], .file (Text.encode "push constant 7\n"))], []⟩, .initial, [], "", {}⟩
    let shownArgv := ["Main.vm", "--bootstrap", "--stack-base", "0x200", "--stdout"]
    let writtenArgv := ["--bootstrap", "--stack-base=0x200", "-o", "Out.asm", "Main.vm"]
    ∃ printed note, (run world shownArgv).2 = .exit 0 printed ∧
      (run world writtenArgv).2 = .exit 0 note ∧
      (run world writtenArgv).1.tree.read (.ofString "Out.asm") = .ok (Text.encode printed) ∧
      (run world shownArgv).1.tree = world.tree := by
  intro world shownArgv writtenArgv
  let shown : Arguments := ⟨"Main.vm", none, some true, false, some "0x200", true, 0, none⟩
  let written : Arguments :=
    ⟨"Main.vm", some "Out.asm", some true, false, some "0x200", false, 0, none⟩
  have hshown : Arguments.ofList true shownArgv = .ok shown := by decide +kernel
  have hwritten : Arguments.ofList true writtenArgv = .ok written := by decide +kernel
  have hbeside : ∀ location, ¬ world.registry.LogsBeside rootLogger location := by
    rintro location ⟨name, -, level, hmem⟩
    exact quiet_closeLogging _ location ⟨name, level, hmem⟩
  have hrun : (run world writtenArgv).2 = .exit 0 "Out.asm\n" := by decide +kernel
  obtain ⟨code, printed, note, hexit, hexit', hread, hkept⟩ :=
    shown_text_is_written world shownArgv writtenArgv shown written hshown hwritten rfl rfl
      ⟨rfl, rfl, rfl, rfl⟩ rfl rfl hbeside "Out.asm" (by decide) ["Out.asm"] (by decide +kernel)
      (by decide) fun _ => rfl
  obtain ⟨rfl, rfl⟩ := Ended.exit.inj (hexit'.symm.trans hrun)
  exact ⟨printed, _, hexit, hexit', hread rfl, hkept⟩

end HackVm.Cli
