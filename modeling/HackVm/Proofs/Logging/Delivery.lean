import HackVm.Proofs.Files.Writing
import HackVm.World

/-!
# What logging changes

Records go to the handlers of loggers, and of these only file handlers reach the tree.  So logging
can change nothing but the files that some logger writes to, `Registry.LogsTo`.

```text
OnlyLogged before after        the loggers are set up as before, and no file is different but
                               those that loggers write to; without such files the tree is the
                               same, and so is the host in any case
Logged before after            lists of records were logged, one after the other
world.Steady paths             the sources are read as they are now, however much is logged
world.OpensLog path location   the file that a path is opened as to be a log file
```

Whatever a run does between reading and writing its files is related by `Logged`, and so by
`OnlyLogged`, which is kept by one list of records (`onlyLogged_logAll`).  To set up a logger with
force takes its old log file away and leaves the others (`logsTo_of_setUpLogging`).
-/

namespace HackVm

open Files Log

/-! ## The files that loggers write to -/

namespace Log.Registry

/-- Some logger writes to the file at the location. -/
def LogsTo (registry : Registry) (location : Location) : Prop :=
  ∃ name level, Handler.file level location ∈ (registry.get name).handlers

/-- The loggers that write to files are known ones. -/
theorem logsTo_iff {registry : Registry} {location : Location} :
    registry.LogsTo location ↔ ∃ name ∈ registry.loggers.map Prod.fst,
      ∃ handler ∈ (registry.get name).handlers, handler = .file handler.level location := by
  constructor
  · rintro ⟨name, level, hmem⟩
    rw [← registry.get_congr (knownAs_knownAs name)] at hmem
    refine ⟨knownAs name, ?_, _, hmem, rfl⟩
    cases hlogger : registry.loggers.lookup (knownAs name) with
    | none =>
        rw [get, knownAs_knownAs, hlogger] at hmem
        exact absurd hmem (by simp)
    | some logger =>
        obtain ⟨entry, hentry, hname⟩ :=
          List.lookup_isSome_iff.mp (Option.isSome_of_eq_some hlogger)
        exact eq_of_beq hname ▸ List.mem_map_of_mem hentry
  · rintro ⟨name, -, handler, hmem, hhandler⟩
    exact ⟨name, handler.level, hhandler ▸ hmem⟩

instance (registry : Registry) (location : Location) : Decidable (registry.LogsTo location) :=
  decidable_of_iff _ logsTo_iff.symm

/-- A logger other than the named one writes to the file at the location. -/
def LogsBeside (registry : Registry) (name : String) (location : Location) : Prop :=
  ∃ other, knownAs other ≠ knownAs name ∧
    ∃ level, Handler.file level location ∈ (registry.get other).handlers

/-- To make a name known changes no logger. -/
@[simp] theorem get_touch (registry : Registry) (name other : String) :
    (registry.touch name).get other = registry.get other := by
  unfold touch
  by_cases hother : knownAs other = knownAs name
  · rw [get_congr _ hother, get_set_self, registry.get_congr hother]
  · rw [get_set_of_ne registry hother]

theorem mem_handlers_of_targets {registry : Registry} {record : Record} {owner : String}
    {handler : Handler} (h : (owner, handler) ∈ registry.targets record) :
    handler ∈ (registry.get owner).handlers := by
  unfold targets at h
  split at h
  · obtain ⟨name, -, hmem⟩ := List.mem_flatMap.mp h
    obtain ⟨found, hfound, hpair⟩ := List.mem_map.mp hmem
    obtain ⟨rfl, rfl⟩ := Prod.mk.inj hpair
    exact (List.mem_filter.mp hfound).1
  · exact absurd h (by simp)

end Log.Registry

/-! ## Delivery -/

namespace World

/-- No logger writes to a file. -/
def Quiet (world : World) : Prop :=
  ∀ location, ¬ world.registry.LogsTo location

/-- When logging was ended, no file is a log file. -/
theorem quiet_closeLogging (world : World) : world.closeLogging.Quiet := by
  rintro location ⟨name, level, hmem⟩
  rw [closeLogging, Registry.get_clear] at hmem
  exact absurd hmem (by simp)

/-- Between two worlds nothing happened but that records were logged. -/
structure OnlyLogged (before after : World) : Prop where
  loggers : ∀ name, after.registry.get name = before.registry.get name
  files : before.tree.KeepsFiles after.tree before.registry.LogsTo
  tree_eq : before.Quiet → after.tree = before.tree
  host_eq : after.host = before.host

namespace OnlyLogged

theorem refl (world : World) : OnlyLogged world world :=
  ⟨fun _ => rfl, .refl _ _, fun _ => rfl, rfl⟩

theorem logsTo_iff {before after : World} (h : OnlyLogged before after) {location : Location} :
    after.registry.LogsTo location ↔ before.registry.LogsTo location := by
  simp only [Registry.LogsTo, h.loggers]

theorem quiet {before after : World} (h : OnlyLogged before after) (hquiet : before.Quiet) :
    after.Quiet :=
  fun location hlogs => hquiet location (h.logsTo_iff.mp hlogs)

theorem trans {first second third : World} (h₁ : OnlyLogged first second)
    (h₂ : OnlyLogged second third) : OnlyLogged first third where
  loggers name := (h₂.loggers name).trans (h₁.loggers name)
  files := h₁.files.trans (h₂.files.mono fun _ => h₁.logsTo_iff.mp)
  tree_eq hquiet := (h₂.tree_eq (h₁.quiet hquiet)).trans (h₁.tree_eq hquiet)
  host_eq := h₂.host_eq.trans h₁.host_eq

end OnlyLogged

theorem logsTo_of_mem_postings {registry : Registry} {records : List Record} {posting : Posting}
    {location : Location} (hmem : posting ∈ postings registry records)
    (hlocation : posting.location? = some location) : registry.LogsTo location := by
  obtain ⟨record, -, hposting⟩ := List.mem_flatMap.mp hmem
  obtain ⟨⟨owner, handler⟩, htarget, rfl⟩ := List.mem_map.mp hposting
  cases handler with
  | console level => exact absurd hlocation (by simp [Posting.location?])
  | file level found =>
      obtain rfl := Option.some.inj hlocation
      exact ⟨owner, level, Registry.mem_handlers_of_targets htarget⟩

private theorem keepsFiles_appends {locations : List Location} {changed : Location → Prop}
    (hlocations : ∀ location ∈ locations, changed location) (lines : Location → Text.Bytes)
    (tree : Tree) :
    tree.KeepsFiles
      (locations.foldl (fun tree location => tree.append location (lines location)) tree)
      changed := by
  induction locations generalizing tree with
  | nil => exact .refl tree changed
  | cons location rest ih =>
      have hfirst : tree.KeepsFiles (tree.append location (lines location)) changed :=
        (tree.keepsFiles_put location _).mono fun other hother =>
          hother ▸ hlocations location (List.mem_cons_self ..)
      have hrest := ih (fun other hother => hlocations other (List.mem_cons_of_mem _ hother))
      exact hfirst.trans (hrest _)

/-- Postings reach no file but those that loggers write to. -/
private theorem onlyLogged_deliver (world : World) (records : List Record) :
    OnlyLogged world (world.deliver (postings world.registry records)) where
  loggers _ := rfl
  files := by
    refine keepsFiles_appends (fun location hlocation => ?_) _ world.tree
    obtain ⟨posting, hposting, hfound⟩ :=
      List.mem_filterMap.mp (List.mem_eraseDups.mp hlocation)
    exact logsTo_of_mem_postings hposting hfound
  tree_eq hquiet := by
    have hnone : (postings world.registry records).filterMap Posting.location? = [] := by
      apply List.filterMap_eq_nil_iff.mpr
      intro posting hposting
      cases hlocation : posting.location? with
      | none => rfl
      | some location => exact absurd (logsTo_of_mem_postings hposting hlocation) (hquiet location)
    simp [deliver, hnone]
  host_eq := rfl

private theorem get_foldl_touch (records : List Record) (registry : Registry) (name : String) :
    (records.foldl (fun registry record => registry.touch record.logger) registry).get name =
      registry.get name := by
  induction records generalizing registry with
  | nil => rfl
  | cons record rest ih => rw [List.foldl_cons, ih, Registry.get_touch]

/-- To log records is only to log. -/
theorem onlyLogged_logAll (world : World) (records : List Record) :
    OnlyLogged world (world.logAll records) := by
  -- First the loggers of the records become known, which touches no file.
  let known : World := { world with
    registry := records.foldl (fun registry record => registry.touch record.logger) world.registry }
  have hknown : OnlyLogged world known :=
    ⟨get_foldl_touch records world.registry, .refl _ _, fun _ => rfl, rfl⟩
  exact hknown.trans (onlyLogged_deliver known records)

theorem onlyLogged_log (world : World) (record : Record) : OnlyLogged world (world.log record) :=
  world.onlyLogged_logAll [record]

/-! ## Logging again and again -/

/-- Lists of records were logged, one after the other. -/
inductive Logged : World → World → Prop
  | refl (world : World) : Logged world world
  | step {world after : World} (records : List Record)
      (hrest : Logged (world.logAll records) after) : Logged world after

namespace Logged

theorem logAll (world : World) (records : List Record) : Logged world (world.logAll records) :=
  .step records (.refl _)

theorem trans {first second third : World} (h₁ : Logged first second)
    (h₂ : Logged second third) : Logged first third := by
  induction h₁ with
  | refl world => exact h₂
  | step records _ ih => exact .step records (ih h₂)

theorem onlyLogged {before after : World} (h : Logged before after) : OnlyLogged before after := by
  induction h with
  | refl world => exact .refl world
  | step records _ ih => exact (onlyLogged_logAll _ records).trans ih

end Logged

/-- However much is logged, the sources are read as they are now. -/
def Steady (world : World) (paths : List Path) : Prop :=
  ∀ after, world.Logged after →
    ∀ path ∈ paths, after.tree.readSource path = world.tree.readSource path

theorem Steady.logged {before after : World} {paths : List Path} (h : before.Steady paths)
    (hlogged : before.Logged after) : after.Steady paths := by
  intro later hlater path hpath
  rw [h later (hlogged.trans hlater) path hpath, h after hlogged path hpath]

theorem Steady.mono {world : World} {paths fewer : List Path} (h : world.Steady paths)
    (hfewer : fewer ⊆ paths) : world.Steady fewer :=
  fun after hlogged path hpath => h after hlogged path (hfewer hpath)

theorem Quiet.steady {world : World} (h : world.Quiet) (paths : List Path) :
    world.Steady paths := by
  intro after hlogged path _
  rw [hlogged.onlyLogged.tree_eq h]

/-! ## Setting up -/

/-- The file that a path is opened as to be a log file, when the directories above it are made. -/
def OpensLog (world : World) (path : Path) (location : Location) : Prop :=
  ∃ tree, world.tree.makeDirectories path.parent = (tree, .ok ()) ∧
    tree.openNew (tree.absolute path) = .ok location

/-- The world in which a logger has a console handler and nothing else. -/
def withConsole (world : World) (name : String) (level consoleLevel : Int) : World :=
  { world with
    registry := (world.registry.touch name).set name ⟨level, [.console consoleLevel]⟩ }

/-- The world in which a logger has one more handler, for the file at the location. -/
def withLogFile (world : World) (name : String) (tree : Tree) (location : Location) : World :=
  let logger := world.registry.get name
  { world with
    tree := tree.append location []
    registry := world.registry.set name
      { logger with handlers := logger.handlers ++ [.file debugLevel location] } }

theorem setUpLogging_force (world : World) (name : String) (level consoleLevel : Int)
    (logFile : Option Path) :
    world.setUpLogging name level consoleLevel logFile true =
      match logFile with
      | none => (world.withConsole name level consoleLevel, .ok ())
      | some path => (world.withConsole name level consoleLevel).addLogFile name path := by
  cases logFile <;> simp [setUpLogging, withConsole]

theorem addLogFile_eq_ok {world ready : World} {name : String} {path : Path}
    (h : world.addLogFile name path = (ready, .ok ())) :
    ∃ tree location, world.tree.makeDirectories path.parent = (tree, .ok ()) ∧
      tree.openNew (tree.absolute path) = .ok location ∧
      OnlyLogged (world.withLogFile name tree location) ready := by
  unfold addLogFile at h
  split at h
  · exact absurd (Prod.mk.inj h).2 (by simp)
  · next tree hmade =>
    split at h
    · exact absurd (Prod.mk.inj h).2 (by simp)
    · next location hopen =>
      obtain ⟨rfl, -⟩ := Prod.mk.inj h
      exact ⟨tree, location, hmade, hopen, onlyLogged_log _ _⟩

variable {world ready : World} {name : String} {level consoleLevel : Int}

private theorem logsTo_of_set {registry : Registry} {logger : Logger} {location : Location}
    (h : (registry.set name logger).LogsTo location) :
    registry.LogsBeside name location ∨ ∃ level, Handler.file level location ∈ logger.handlers := by
  obtain ⟨other, level, hmem⟩ := h
  by_cases hother : knownAs other = knownAs name
  · rw [Registry.get_congr _ hother, Registry.get_set_self] at hmem
    exact .inr ⟨level, hmem⟩
  · rw [Registry.get_set_of_ne registry hother] at hmem
    exact .inl ⟨other, hother, level, hmem⟩

theorem logsTo_of_withConsole {location : Location}
    (h : (world.withConsole name level consoleLevel).registry.LogsTo location) :
    world.registry.LogsBeside name location := by
  rcases logsTo_of_set h with ⟨other, hother, level, hmem⟩ | ⟨level, hmem⟩
  · rw [Registry.get_touch] at hmem
    exact ⟨other, hother, level, hmem⟩
  · exact absurd hmem (by simp)

theorem logsTo_of_withLogFile {tree : Tree} {opened location : Location}
    (h : (world.withLogFile name tree opened).registry.LogsTo location) :
    world.registry.LogsTo location ∨ location = opened := by
  rcases logsTo_of_set h with ⟨other, -, hother⟩ | ⟨level, hmem⟩
  · exact .inl ⟨other, hother⟩
  · rcases List.mem_append.mp hmem with hold | hnew
    · exact .inl ⟨name, level, hold⟩
    · exact .inr (Handler.file.inj (List.mem_singleton.mp hnew)).2

/-- After a forced set-up, log files are those of the other loggers and the one that was asked
for. -/
theorem logsTo_of_setUpLogging {logFile : Option Path}
    (h : world.setUpLogging name level consoleLevel logFile true = (ready, .ok ()))
    {location : Location} (hlogs : ready.registry.LogsTo location) :
    world.registry.LogsBeside name location ∨ ∃ path ∈ logFile, world.OpensLog path location := by
  rw [setUpLogging_force] at h
  cases logFile with
  | none =>
      obtain ⟨rfl, -⟩ := Prod.mk.inj h
      exact .inl (logsTo_of_withConsole hlogs)
  | some path =>
      obtain ⟨tree, opened, hmade, hopen, honly⟩ := addLogFile_eq_ok h
      rcases logsTo_of_withLogFile (honly.logsTo_iff.mp hlogs) with hconsole | rfl
      · exact .inl (logsTo_of_withConsole hconsole)
      · exact .inr ⟨path, rfl, tree, hmade, hopen⟩

/-- A set-up changes no file but those that are log files afterwards. -/
theorem keepsFiles_setUpLogging {logFile : Option Path}
    (h : world.setUpLogging name level consoleLevel logFile true = (ready, .ok ())) :
    world.tree.KeepsFiles ready.tree ready.registry.LogsTo := by
  rw [setUpLogging_force] at h
  cases logFile with
  | none =>
      obtain ⟨rfl, -⟩ := Prod.mk.inj h
      exact .refl _ _
  | some path =>
      obtain ⟨tree, opened, hmade, -, honly⟩ := addLogFile_eq_ok h
      have hdirectories : world.tree.KeepsFiles tree ready.registry.LogsTo := by
        have hkeeps := world.tree.keepsFiles_makeDirectories path.parent ready.registry.LogsTo
        rwa [show world.tree.makeDirectories path.parent = (tree, .ok ()) from hmade] at hkeeps
      have hopened : ready.registry.LogsTo opened := by
        refine honly.logsTo_iff.mpr ⟨name, debugLevel, ?_⟩
        rw [withLogFile, Registry.get_set_self]
        exact List.mem_append_right _ (List.mem_singleton_self _)
      have hfile : tree.KeepsFiles (tree.append opened []) ready.registry.LogsTo :=
        (tree.keepsFiles_put opened _).mono fun other hother => hother ▸ hopened
      exact hdirectories.trans (hfile.trans (honly.files.mono fun _ => honly.logsTo_iff.mpr))

end World

end HackVm
