import HackVm.Proofs.Building.Requests
import HackVm.Proofs.Logging.Sinks

/-!
# What a request logs

The journal of a piece of work lists the records that it logs, in order, and the file that it opens
for its output.  It is told without regard to loggers and handlers:

```text
a build       the input, the compilation, and the output if it was written in full
a preview     the compilation alone
compilation   the start-up code, then each source: opened, its commands, compiled
```

Where a fault ends the work, the journal ends too.  With the root logger set up, a request logs its
journal and nothing else (`Ready.logs_build`, `Ready.logs_preview`).
-/

namespace HackVm

open Files Log World
open Emit (Session)

/-! ## Records -/

theorem ofProgram_commandRecord (source : String) (number : Nat) (command : Command) :
    (commandRecord source number command).OfProgram :=
  Record.ofProgram_mk (by decide) (by decide) (by decide) _ _

theorem ofProgram_compileLines (source : String) (number : Nat) (session : Session)
    (lines : List String) :
    ∀ record ∈ (compileLines source number session lines).records, record.OfProgram := by
  induction lines generalizing number session with
  | nil => exact fun record hrecord => absurd hrecord List.not_mem_nil
  | cons line rest ih =>
      cases hread : readLine source number line with
      | error error =>
          rw [compileLines_unread hread]
          exact fun record hrecord => absurd hrecord List.not_mem_nil
      | ok found =>
          cases found with
          | none =>
              rw [compileLines_blank hread]
              exact ih (number + 1) session
          | some command =>
              have hcommand := ofProgram_commandRecord source number command
              cases hemit : session.emit command with
              | mk next result =>
                  cases result with
                  | error error =>
                      rw [compileLines_unemitted hread hemit]
                      exact List.forall_mem_singleton.mpr hcommand
                  | ok block =>
                      rw [compileLines_command hread hemit]
                      exact List.forall_mem_cons.mpr ⟨hcommand, ih (number + 1) next⟩

theorem ofProgram_compileSource (session : Session) (source : Source) :
    ∀ record ∈ (compileSource session source).records, record.OfProgram := by
  have hlines := ofProgram_compileLines source.name 1 (session.openSource source.name) source.lines
  unfold compileSource
  refine List.forall_mem_cons.mpr ⟨Record.ofProgram_mk (by decide) (by decide) (by decide) _ _, ?_⟩
  split
  · exact hlines
  · refine List.forall_mem_append.mpr ⟨hlines, List.forall_mem_singleton.mpr ?_⟩
    exact Record.ofProgram_mk (by decide) (by decide) (by decide) _ _

theorem ofProgram_bootstrapRecords (stackBase : Int) :
    ∀ record ∈ bootstrapRecords stackBase, record.OfProgram := by
  unfold bootstrapRecords
  split
  · exact List.forall_mem_singleton.mpr
      (Record.ofProgram_mk (by decide) (by decide) (by decide) _ _)
  · exact fun record hrecord => absurd hrecord List.not_mem_nil

theorem Settings.ofProgram_startRecords (settings : Settings) :
    ∀ record ∈ settings.startRecords, record.OfProgram := by
  have hbootstrap : (compileBootstrap settings.session).records =
      bootstrapRecords settings.session.stackBase := by
    unfold compileBootstrap
    dsimp only
    split <;> dsimp only
  unfold startRecords compileStart
  split
  · rw [hbootstrap]
    exact ofProgram_bootstrapRecords _
  · exact fun record hrecord => absurd hrecord List.not_mem_nil

theorem ofProgram_inputRecord (path : Path) (count : Nat) : (inputRecord path count).OfProgram :=
  Record.ofProgram_mk (by decide) (by decide) (by decide) _ _

theorem ofProgram_outputRecord (path : Path) (text : String) : (outputRecord path text).OfProgram :=
  Record.ofProgram_mk (by decide) (by decide) (by decide) _ _

/-! ## Journals -/

/-- The records that a piece of work logs, and the file that it opens for its output. -/
structure Journal where
  records : List Record
  output : Option Location
  deriving DecidableEq, Repr

namespace World

/-- The records of a compilation. -/
def compilationRecords (world : World) (settings : Settings) (paths : List Path) : List Record :=
  let start := compileStart settings.session settings.bootstrap
  match start.failure with
  | some _ => start.records
  | none =>
    start.records ++ ((world.logAll start.records).compileEach start.session paths).2.records

/-- The journal of a build. -/
def buildJournal (world : World) (request : Request) : Journal :=
  match world.plan request with
  | .error _ => ⟨[], none⟩
  | .ok (paths, settings, output) =>
    let input := inputRecord request.input paths.length
    let records := input :: (world.log input).compilationRecords settings paths
    match (world.log input).compileFiles settings paths with
    | (_, .error _) => ⟨records, none⟩
    | (compiled, .ok text) =>
      match compiled.tree.openNew output with
      | .error _ => ⟨records, none⟩
      | .ok location =>
        match compiled.host.shortfall? location (Text.encode text) with
        | some _ => ⟨records, some location⟩
        | none => ⟨records ++ [outputRecord output text], some location⟩

/-- The journal of a preview, which writes nothing. -/
def previewJournal (world : World) (request : Request) : Journal :=
  match world.settings request, world.tree.discover request.input with
  | .ok settings, .ok paths => ⟨world.compilationRecords settings paths, none⟩
  | _, _ => ⟨[], none⟩

/-! ## The journal is what is logged -/

namespace Ready

variable {world : World} {sinks : Sinks} (h : world.Ready sinks) (watched : Location)
include h

theorem logs_log {record : Record} (hrecord : record.OfProgram) :
    Logs sinks watched world [record] (world.log record) :=
  h.logs_logAll (List.forall_mem_singleton.mpr hrecord) watched

theorem logs_compileEach (session : Session) (paths : List Path) :
    Logs sinks watched world (world.compileEach session paths).2.records
      (world.compileEach session paths).1 := by
  induction paths generalizing world session with
  | nil => exact .refl h
  | cons path rest ih =>
      rw [compileEach]
      split
      · exact .refl h
      · next source _ =>
        -- The records of a source are logged before the next one is read.
        have hfirst := h.logs_logAll (ofProgram_compileSource session source) watched
        dsimp only
        split
        · exact hfirst
        · exact hfirst.trans (ih hfirst.ready _)

theorem logs_compileFiles (settings : Settings) (paths : List Path) :
    Logs sinks watched world (world.compilationRecords settings paths)
      (world.compileFiles settings paths).1 := by
  have hstart := h.logs_logAll settings.ofProgram_startRecords watched
  unfold compilationRecords compileFiles
  dsimp only
  cases (compileStart settings.session settings.bootstrap).failure with
  | some failure => exact hstart
  | none => exact hstart.trans (hstart.ready.logs_compileEach watched _ paths)

/-- A preview logs its journal. -/
theorem logs_preview (request : Request) :
    Logs sinks watched world (world.previewJournal request).records (world.preview request).1 := by
  unfold previewJournal preview
  cases world.settings request with
  | error error => exact .refl h
  | ok settings =>
      cases world.tree.discover request.input with
      | error error => exact .refl h
      | ok paths => exact h.logs_compileFiles watched settings paths

/-- To write a file that is not watched logs nothing. -/
theorem logs_put {location : Location} (hlocation : location ≠ []) (hwatched : location ≠ watched)
    (content : Text.Bytes) :
    Logs sinks watched world [] { world with tree := world.tree.put location (.file content) } where
  ofProgram := by simp
  ready.wired := h.wired
  ready.file := by
    intro logFile hlogFile
    dsimp only
    by_cases hsame : logFile = location
    · rw [hsame, Tree.content?_put_file _ hlocation, Option.isSome_some]
    · rw [Tree.content?_put_of_ne _ hsame]
      exact h.file logFile hlogFile
  time := rfl
  host := rfl
  console := (List.append_nil _).symm
  content := by
    dsimp only
    rw [Tree.content?_put_of_ne _ hwatched.symm]
    simp [logLines]

/-- A build logs its journal, as far as it can be seen in a file that it does not write. -/
theorem logs_build (request : Request)
    (houtput : (world.buildJournal request).output ≠ some watched) :
    Logs sinks watched world (world.buildJournal request).records (world.build request).1 := by
  unfold buildJournal build at *
  cases hplan : world.plan request with
  | error failure => exact .refl h
  | ok plan =>
      obtain ⟨paths, settings, output⟩ := plan
      have hinput := h.logs_log watched (ofProgram_inputRecord request.input paths.length)
      have hcompiled := hinput.trans (hinput.ready.logs_compileFiles watched settings paths)
      simp only [hplan] at houtput ⊢
      cases hcompile : (world.log (inputRecord request.input paths.length)).compileFiles settings
          paths with
      | mk compiled result =>
          rw [hcompile] at hcompiled
          cases result with
          | error failure => exact hcompiled
          | ok text =>
              simp only [hcompile] at houtput ⊢
              cases hopen : compiled.tree.openNew output with
              | error error =>
                  rw [(Tree.WriteEnds.unopened hopen).write_eq]
                  exact hcompiled
              | ok location =>
                  -- The output is written to between two records, and is not watched.
                  have hput : location ≠ watched → ∀ content, Logs sinks watched compiled []
                      { compiled with tree := compiled.tree.put location (.file content) } :=
                    hcompiled.ready.logs_put watched
                      (Tree.ne_nil_of_not_isDirectoryAt (Tree.openNew_eq_ok hopen).2)
                  simp only [hopen] at houtput ⊢
                  cases hshort : compiled.host.shortfall? location (Text.encode text) with
                  | some shortfall =>
                      simp only [hshort, ne_eq, Option.some.injEq] at houtput ⊢
                      rw [(Tree.WriteEnds.short hopen hshort).write_eq]
                      have hall := hcompiled.trans
                        (hput houtput ((Text.encode text).take shortfall.taken))
                      rw [List.append_nil] at hall
                      exact hall
                  | none =>
                      simp only [hshort, ne_eq, Option.some.injEq] at houtput ⊢
                      rw [(Tree.WriteEnds.full hopen hshort).write_eq]
                      have hwritten := hput houtput (Text.encode text)
                      have hlast := hwritten.ready.logs_log watched
                        (ofProgram_outputRecord output text)
                      exact hcompiled.trans (hwritten.trans hlast)

end Ready

end World

end HackVm
