import HackVm.Proofs.Compilation.FirstFault
import HackVm.Proofs.Logging.Delivery

/-!
# Compiling files one after the other

A source file is read when its turn comes: after everything before it was compiled, and after the
records of that were logged, perhaps into the very file.  So a file that cannot be read and a line
that has a fault compete, and the earliest file that has either decides.

```text
FilesPass world session paths sources final last   all files are read as these sources, and pass
FileFails tree session path failure                the file cannot be read, or a line of it fails
CompilationPasses, CompilationFails                the same for a program with its start-up code
FirstFails tree settings paths failure             a failing program, told from the tree alone
```

The relations follow `compileEach` and `compileFiles`.  Either all files pass or a first one fails
(`filesPass_or_fails`), and both ways it is known what the compilation gives
(`CompilationPasses.compileFiles_eq`, `CompilationFails.compileFiles_eq`).  Files that are no log
files stay the same, and the sources are what they held all along (`filesPass_iff_of_steady`,
`compilationPasses_iff_of_steady`, `compilationFails_iff_of_steady`): their compilation is that of
the sources (`compileFiles_eq_of_reads`).
-/

namespace HackVm

open Emit Files Log World

/-! ## One file -/

/-- The file cannot be read, or one of its lines fails when all lines before it have passed. -/
inductive FileFails (tree : Tree) (session : Session) (path : Path) : Failure → Prop
  | unread {error : FileError} (hread : tree.readSource path = .error error) :
      FileFails tree session path (.file error)
  | line {source : Source} {front rest : List String} {line : String} {commands : List Command}
      {here : Session} {failure : Failure} (hread : tree.readSource path = .ok source)
      (hlines : source.lines = front ++ line :: rest)
      (hfront : LinesPass source.name 1 (session.openSource source.name) front commands here)
      (hfails : LineFails source.name (front.length + 1) here line failure) :
      FileFails tree session path failure

/-- A source whose lines pass is compiled. -/
theorem LinesPass.compileSource_eq {session middle : Session} {source : Source}
    {commands : List Command}
    (h : LinesPass source.name 1 (session.openSource source.name) source.lines commands middle) :
    (compileSource session source).failure = none ∧
      (compileSource session source).session = middle := by
  obtain ⟨hfailure, -, -, hsession⟩ := compileSource_eq_compileLines session source
  obtain ⟨hnone, -, hmiddle⟩ := h.compileLines_eq
  exact ⟨hfailure.trans hnone, hsession.trans hmiddle⟩

/-- At a file that fails, nothing more is compiled. -/
theorem FileFails.compileEach_cons {world : World} {session : Session} {path : Path}
    {failure : Failure} (h : FileFails world.tree session path failure) (rest : List Path) :
    (world.compileEach session (path :: rest)).2.failure = some failure := by
  cases h with
  | unread hread =>
      simp only [compileEach, hread]
      rfl
  | @line source front after line commands here _ hread hlines hfront hfails =>
      have hfailure : (compileSource session source).failure = some failure := by
        obtain ⟨done, -, hcompile⟩ := hfront.compile_append (line :: after)
        rw [Nat.add_comm] at hfails
        rw [(compileSource_eq_compileLines session source).1, hlines, hcompile,
          Outcome.failure_followedBy]
        exact (hfails.compileLines_cons after).1
      simp only [compileEach, hread, hfailure]

/-! ## All files -/

/-- The files are read as the sources, one after the other, and all their lines pass.  Each is read
in the world that those before it leave behind. -/
inductive FilesPass : World → Session → List Path → List Source → World → Session → Prop
  | nil (world : World) (session : Session) : FilesPass world session [] [] world session
  | cons {world final : World} {session middle last : Session} {path : Path} {rest : List Path}
      {source : Source} {sources : List Source} {commands : List Command}
      (hread : world.tree.readSource path = .ok source)
      (hlines : LinesPass source.name 1 (session.openSource source.name) source.lines commands
        middle)
      (hrest : FilesPass (world.logAll (compileSource session source).records) middle rest sources
        final last) :
      FilesPass world session (path :: rest) (source :: sources) final last

namespace FilesPass

variable {world final : World} {session last : Session} {paths : List Path} {sources : List Source}

/-- After files that pass, a compilation goes on in the world and the session that they leave. -/
theorem compileEach_append (h : FilesPass world session paths sources final last)
    (rest : List Path) :
    world.compileEach session (paths ++ rest) =
      ((final.compileEach last rest).1,
        (compileSources session sources).followedBy (final.compileEach last rest).2) := by
  induction h with
  | nil world session =>
      rw [compileSources, Outcome.start_followedBy]
      rfl
  | @cons world final session middle last path paths source sources commands hread hlines _ ih =>
      obtain ⟨hnone, hmiddle⟩ := hlines.compileSource_eq
      rw [List.cons_append, compileEach, hread]
      simp only [hnone, hmiddle, ih]
      rw [compileSources, Outcome.andThen_of_none hnone, hmiddle, Outcome.followedBy_assoc]

theorem sourcesPass (h : FilesPass world session paths sources final last) :
    ∃ commands, SourcesPass session sources commands last := by
  induction h with
  | nil world session => exact ⟨[], .nil session⟩
  | cons _ hlines _ ih =>
      obtain ⟨commands, hrest⟩ := ih
      exact ⟨_, .cons hlines hrest⟩

theorem logged (h : FilesPass world session paths sources final last) : world.Logged final := by
  induction h with
  | nil world session => exact .refl world
  | cons _ _ _ ih => exact .step _ ih

end FilesPass

/-- All files pass, or one of them is reached that fails. -/
theorem filesPass_or_fails (world : World) (session : Session) (paths : List Path) :
    (∃ sources final last, FilesPass world session paths sources final last) ∨
      ∃ before path after sources here middle failure, paths = before ++ path :: after ∧
        FilesPass world session before sources here middle ∧
        FileFails here.tree middle path failure := by
  induction paths generalizing world session with
  | nil => exact .inl ⟨[], world, session, .nil world session⟩
  | cons path rest ih =>
      cases hread : world.tree.readSource path with
      | error error =>
          exact .inr ⟨[], path, rest, [], world, session, _, rfl, .nil world session, .unread hread⟩
      | ok source =>
          rcases linesPass_or_fails source.name 1 (session.openSource source.name) source.lines with
            ⟨commands, middle, hlines⟩ |
            ⟨front, line, after, commands, here, failure, hlines, hfront, hfails⟩
          · rcases ih (world.logAll (compileSource session source).records) middle with
              ⟨sources, final, last, hrest⟩ |
              ⟨before, bad, after, sources, here, there, failure, hpaths, hbefore, hfails⟩
            · exact .inl ⟨source :: sources, final, last, .cons hread hlines hrest⟩
            · exact .inr ⟨path :: before, bad, after, source :: sources, here, there, failure,
                congrArg (path :: ·) hpaths, .cons hread hlines hbefore, hfails⟩
          · rw [Nat.add_comm] at hfails
            exact .inr ⟨[], path, rest, [], world, session, failure, rfl, .nil world session,
              .line hread hlines hfront hfails⟩

/-- To compile files is only to log, also up to a fault. -/
theorem logged_compileEach (world : World) (session : Session) (paths : List Path) :
    world.Logged (world.compileEach session paths).1 := by
  induction paths generalizing world session with
  | nil => exact .refl world
  | cons path rest ih =>
      rw [compileEach]
      split
      · exact .refl world
      · dsimp only
        split
        · exact .logAll world _
        · exact .step _ (ih _ _)

/-! ## Files that are no log files -/

/-- The files hold the sources. -/
def Reads (tree : Tree) (paths : List Path) (sources : List Source) : Prop :=
  List.Forall₂ (fun path source => tree.readSource path = .ok source) paths sources

/-- What files hold and how they fail depends on how they are read, and on nothing else. -/
theorem Reads.congr {tree other : Tree} {paths : List Path}
    (hsame : ∀ path ∈ paths, other.readSource path = tree.readSource path)
    {sources : List Source} (h : Reads tree paths sources) : Reads other paths sources := by
  induction h with
  | nil => exact .nil
  | cons hread _ ih =>
      obtain ⟨hfirst, hrest⟩ := List.forall_mem_cons.mp hsame
      exact .cons (hfirst.trans hread) (ih hrest)

theorem FileFails.congr {tree other : Tree} {path : Path}
    (hsame : other.readSource path = tree.readSource path) {session : Session}
    {failure : Failure} (h : FileFails tree session path failure) :
    FileFails other session path failure := by
  cases h with
  | unread hread => exact .unread (hsame.trans hread)
  | line hread hlines hfront hfails => exact .line (hsame.trans hread) hlines hfront hfails

/-- Files that are no log files are read as they were before the compilation. -/
theorem filesPass_iff_of_steady {world : World} {paths : List Path} (hsteady : world.Steady paths)
    {session last : Session} {sources : List Source} :
    (∃ final, FilesPass world session paths sources final last) ↔
      Reads world.tree paths sources ∧ ∃ commands, SourcesPass session sources commands last := by
  constructor
  · rintro ⟨final, h⟩
    refine ⟨?_, h.sourcesPass⟩
    induction h with
    | nil world session => exact .nil
    | @cons world final session middle last path rest source sources _ hread _ _ ih =>
        have hlogged := Logged.logAll world (compileSource session source).records
        have hrest := hsteady.mono (List.subset_cons_self path rest)
        refine .cons hread ((ih (hrest.logged hlogged)).congr fun other hother => ?_)
        exact (hrest _ hlogged other hother).symm
  · rintro ⟨hreads, commands, hpass⟩
    induction paths generalizing world session sources commands with
    | nil =>
        cases hreads
        cases hpass
        exact ⟨world, .nil world _⟩
    | cons path rest ih =>
        cases hreads with
        | @cons _ source _ sources hread hreads =>
            cases hpass with
            | @cons _ middle _ _ _ _ _ hlines hpass =>
                have hlogged := Logged.logAll world (compileSource session source).records
                have hrest := hsteady.mono (List.subset_cons_self path rest)
                obtain ⟨final, hfinal⟩ :=
                  ih (hrest.logged hlogged) (Reads.congr (hrest _ hlogged) hreads) _ hpass
                exact ⟨final, .cons hread hlines hfinal⟩

/-! ## A program -/

namespace Settings

/-- The start-up code is not wanted, or can be written. -/
def Starts (settings : Settings) : Prop :=
  settings.bootstrap = true → Text.isWritable settings.stackBase = true

/-- What is logged before the first file is read. -/
def startRecords (settings : Settings) : List Record :=
  (compileStart settings.session settings.bootstrap).records

theorem Starts.compileStart_eq {settings : Settings} (h : settings.Starts) :
    (compileStart settings.session settings.bootstrap).failure = none := by
  unfold compileStart
  cases hbootstrap : settings.bootstrap with
  | false => rfl
  | true =>
      unfold compileBootstrap Session.bootstrap
      rw [if_pos rfl, if_pos (show Text.isWritable settings.session.stackBase = true from
        h hbootstrap)]

/-- A stack base that is too long to be written is the only thing that can go wrong. -/
theorem compileStart_of_not_starts {settings : Settings} (h : ¬ settings.Starts) :
    (compileStart settings.session settings.bootstrap).failure = some (.number .tooLong) := by
  obtain ⟨hbootstrap, hwritable⟩ := Classical.not_imp.mp h
  unfold compileStart compileBootstrap Session.bootstrap
  rw [if_pos hbootstrap, if_neg (show ¬ Text.isWritable settings.session.stackBase = true from
    hwritable)]
  rfl

end Settings

/-- The files are read as the sources and the program is compiled to the text, which leaves another
world behind. -/
structure CompilationPasses (world : World) (settings : Settings) (paths : List Path)
    (sources : List Source) (text : String) (final : World) : Prop where
  starts : settings.Starts
  files : ∃ last, FilesPass (world.logAll settings.startRecords) settings.opening paths sources
    final last
  compiled : compileText settings sources = .ok text

/-- The start-up code fails, or the first of the files that does. -/
inductive CompilationFails (world : World) (settings : Settings) (paths : List Path) :
    Failure → Prop
  | startUp (hstart : ¬ settings.Starts) : CompilationFails world settings paths (.number .tooLong)
  | file {before after : List Path} {path : Path} {sources : List Source} {here : World}
      {middle : Session} {failure : Failure} (hstart : settings.Starts)
      (hpaths : paths = before ++ path :: after)
      (hbefore : FilesPass (world.logAll settings.startRecords) settings.opening before sources here
        middle)
      (hfails : FileFails here.tree middle path failure) :
      CompilationFails world settings paths failure

variable {world final : World} {settings : Settings} {paths : List Path} {sources : List Source}
  {text : String} {failure : Failure}

theorem Settings.Starts.compile_eq (h : settings.Starts) (sources : List Source) :
    compile settings sources =
      (compileStart settings.session settings.bootstrap).followedBy
        (compileSources settings.opening sources) := by
  rw [compile, compileIn, Outcome.andThen_of_none h.compileStart_eq]
  rfl

theorem Settings.Starts.compileFiles_eq (h : settings.Starts) (world : World)
    (paths : List Path) :
    world.compileFiles settings paths =
      let compiled := (world.logAll settings.startRecords).compileEach settings.opening paths
      (compiled.1, ((compileStart settings.session settings.bootstrap).followedBy
        compiled.2).result) := by
  simp only [compileFiles, h.compileStart_eq]
  rfl

theorem CompilationPasses.compileFiles_eq
    (h : CompilationPasses world settings paths sources text final) :
    world.compileFiles settings paths = (final, .ok text) := by
  obtain ⟨hstart, ⟨last, hfiles⟩, hcompiled⟩ := h
  obtain ⟨commands, hpass⟩ := hfiles.sourcesPass
  have heach := hfiles.compileEach_append []
  rw [List.append_nil] at heach
  rw [compileText, hstart.compile_eq] at hcompiled
  rw [hstart.compileFiles_eq, heach, ← hcompiled]
  refine Prod.ext rfl ?_
  simp only [compileEach, Outcome.result, Outcome.failure_followedBy, hpass.compileSources_eq.1]
  simp [Outcome.followedBy, Outcome.start]

theorem CompilationFails.compileFiles_eq (h : CompilationFails world settings paths failure) :
    (world.compileFiles settings paths).2 = .error failure := by
  cases h with
  | startUp hstart =>
      simp only [compileFiles, Settings.compileStart_of_not_starts hstart]
  | @file before after path sources here middle _ hstart hpaths hbefore hfails =>
      rw [hstart.compileFiles_eq, hpaths, hbefore.compileEach_append]
      simp only [Outcome.result, Outcome.failure_followedBy, hfails.compileEach_cons after]

theorem compilation_passes_or_fails (world : World) (settings : Settings) (paths : List Path) :
    (∃ sources text final, CompilationPasses world settings paths sources text final) ∨
      ∃ failure, CompilationFails world settings paths failure := by
  by_cases hstart : settings.Starts
  · rcases filesPass_or_fails (world.logAll settings.startRecords) settings.opening paths with
      ⟨sources, final, last, hfiles⟩ |
      ⟨before, path, after, sources, here, middle, failure, hpaths, hbefore, hfails⟩
    · obtain ⟨commands, hpass⟩ := hfiles.sourcesPass
      refine .inl ⟨sources, assembly (compile settings sources).statements, final, hstart,
        ⟨last, hfiles⟩, ?_⟩
      have hnone : (compile settings sources).failure = none := by
        rw [hstart.compile_eq, Outcome.failure_followedBy, hpass.compileSources_eq.1]
      rw [compileText, Outcome.result, hnone]
    · exact .inr ⟨failure, .file hstart hpaths hbefore hfails⟩
  · exact .inr ⟨_, .startUp hstart⟩

theorem compileFiles_eq_ok_iff :
    world.compileFiles settings paths = (final, .ok text) ↔
      ∃ sources, CompilationPasses world settings paths sources text final := by
  constructor
  · intro hok
    rcases compilation_passes_or_fails world settings paths with
      ⟨sources, other, last, hpass⟩ | ⟨failure, hfails⟩
    · obtain ⟨rfl, hother⟩ := Prod.mk.inj (hpass.compileFiles_eq.symm.trans hok)
      obtain rfl := Except.ok.inj hother
      exact ⟨sources, hpass⟩
    · have herror := hfails.compileFiles_eq
      rw [hok] at herror
      exact absurd herror (by simp)
  · rintro ⟨sources, hpass⟩
    exact hpass.compileFiles_eq

theorem compileFiles_eq_error_iff :
    (world.compileFiles settings paths).2 = .error failure ↔
      CompilationFails world settings paths failure := by
  refine ⟨fun herror => ?_, CompilationFails.compileFiles_eq⟩
  rcases compilation_passes_or_fails world settings paths with
    ⟨sources, text, last, hpass⟩ | ⟨other, hfails⟩
  · rw [hpass.compileFiles_eq] at herror
    exact absurd herror (by simp)
  · obtain rfl := Except.error.inj (hfails.compileFiles_eq.symm.trans herror)
    exact hfails

theorem logged_compileFiles (world : World) (settings : Settings) (paths : List Path) :
    world.Logged (world.compileFiles settings paths).1 := by
  unfold compileFiles
  dsimp only
  split
  · exact .logAll world _
  · exact .step _ (logged_compileEach _ _ _)

theorem onlyLogged_compileFiles (world : World) (settings : Settings) (paths : List Path) :
    OnlyLogged world (world.compileFiles settings paths).1 :=
  (logged_compileFiles world settings paths).onlyLogged

/-! ## A program of files that are no log files -/

/-- The start-up code cannot be written, or the file is the first that fails, when the files before
it are read as they stand in the tree. -/
inductive FirstFails (tree : Tree) (settings : Settings) (paths : List Path) : Failure → Prop
  | startUp (hstart : ¬ settings.Starts) : FirstFails tree settings paths (.number .tooLong)
  | file {before after : List Path} {path : Path} {sources : List Source}
      {commands : List Command} {middle : Session} {failure : Failure} (hstart : settings.Starts)
      (hpaths : paths = before ++ path :: after) (hreads : Reads tree before sources)
      (hpass : SourcesPass settings.opening sources commands middle)
      (hfails : FileFails tree middle path failure) : FirstFails tree settings paths failure

theorem compilationFails_iff_of_steady (hsteady : world.Steady paths) :
    CompilationFails world settings paths failure ↔
      FirstFails world.tree settings paths failure := by
  have hlogged := Logged.logAll world settings.startRecords
  constructor
  · intro hfails
    cases hfails with
    | startUp hstart => exact .startUp hstart
    | @file before after path _ _ _ _ hstart hpaths hbefore hfails =>
        have hfront := hsteady.mono (hpaths ▸ List.subset_append_left before (path :: after))
        obtain ⟨hreads, commands, hpass⟩ :=
          (filesPass_iff_of_steady (hfront.logged hlogged)).mp ⟨_, hbefore⟩
        refine .file hstart hpaths (hreads.congr fun other hother => ?_) hpass (hfails.congr ?_)
        · exact (hfront _ hlogged other hother).symm
        · exact (hsteady _ (hlogged.trans hbefore.logged) path (by simp [hpaths])).symm
  · intro hfails
    cases hfails with
    | startUp hstart => exact .startUp hstart
    | @file before after path _ _ _ _ hstart hpaths hreads hpass hfails =>
        have hfront := hsteady.mono (hpaths ▸ List.subset_append_left before (path :: after))
        obtain ⟨here, hbefore⟩ := (filesPass_iff_of_steady (hfront.logged hlogged)).mpr
          ⟨hreads.congr (hfront _ hlogged), _, hpass⟩
        refine .file hstart hpaths hbefore (hfails.congr ?_)
        exact hsteady _ (hlogged.trans hbefore.logged) path (by simp [hpaths])

/-- What is compiled without a fault starts, and all its lines pass. -/
theorem passes_of_compileText (h : compileText settings sources = .ok text) :
    settings.Starts ∧ ∃ commands last, SourcesPass settings.opening sources commands last := by
  have hnone : (compile settings sources).failure = none := by
    unfold compileText Outcome.result at h
    split at h
    · exact absurd h (by simp)
    · assumption
  have hstart : settings.Starts := by
    by_contra hstart
    rw [compile, compileIn, Outcome.andThen, Settings.compileStart_of_not_starts hstart] at hnone
    exact absurd (hnone.symm.trans (Settings.compileStart_of_not_starts hstart)) (by simp)
  refine ⟨hstart, ?_⟩
  rw [hstart.compile_eq, Outcome.failure_followedBy] at hnone
  rcases passes_or_fails settings.opening sources with hpass |
    ⟨commands, here, source, number, line, failure, harrive, hfail⟩
  · exact hpass
  · exact absurd (hnone.symm.trans (harrive.compileSources_eq hfail).1) (by simp)

theorem compilationPasses_iff_of_steady (hsteady : world.Steady paths) :
    (∃ final, CompilationPasses world settings paths sources text final) ↔
      Reads world.tree paths sources ∧ compileText settings sources = .ok text := by
  have hlogged := Logged.logAll world settings.startRecords
  have hfiles := @filesPass_iff_of_steady _ _ (hsteady.logged hlogged) settings.opening
  constructor
  · rintro ⟨final, -, ⟨last, hpass⟩, hcompiled⟩
    have hreads := (hfiles.mp ⟨final, hpass⟩).1
    exact ⟨hreads.congr fun path hpath => (hsteady _ hlogged path hpath).symm, hcompiled⟩
  · rintro ⟨hreads, hcompiled⟩
    obtain ⟨hstart, commands, last, hpass⟩ := passes_of_compileText hcompiled
    obtain ⟨final, hpassed⟩ := hfiles.mpr ⟨hreads.congr (hsteady _ hlogged), commands, hpass⟩
    exact ⟨final, hstart, ⟨last, hpassed⟩, hcompiled⟩

private theorem compileEach_eq_of_reads {world : World} {paths : List Path}
    (hsteady : world.Steady paths) {sources : List Source}
    (hreads : Reads world.tree paths sources) (session : Session) :
    (world.compileEach session paths).2 = compileSources session sources := by
  induction paths generalizing world session sources with
  | nil =>
      cases hreads
      rfl
  | cons path rest ih =>
      cases hreads with
      | @cons _ source _ sources hread hreads =>
          rw [compileEach, hread, compileSources, Outcome.andThen]
          dsimp only
          cases hfailure : (compileSource session source).failure with
          | some failure => rfl
          | none =>
              have hlogged := Logged.logAll world (compileSource session source).records
              have hrest := hsteady.mono (List.subset_cons_self path rest)
              dsimp only
              rw [ih (hrest.logged hlogged) (Reads.congr (hrest _ hlogged) hreads)]

/-- A compilation of files that are no log files gives what the sources in them give, be it a text
or a fault. -/
theorem compileFiles_eq_of_reads (hsteady : world.Steady paths)
    (hreads : Reads world.tree paths sources) (settings : Settings) :
    (world.compileFiles settings paths).2 = compileText settings sources := by
  have hlogged := Logged.logAll world settings.startRecords
  have heach := compileEach_eq_of_reads (hsteady.logged hlogged)
    (hreads.congr (hsteady _ hlogged))
  by_cases hstart : settings.Starts
  · rw [hstart.compileFiles_eq, compileText, hstart.compile_eq, ← heach settings.opening]
  · have hfailure := Settings.compileStart_of_not_starts hstart
    simp only [compileFiles, compileText, compile, compileIn, Outcome.andThen, Outcome.result,
      hfailure]

end HackVm
