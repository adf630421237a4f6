import HackVm.Proofs.Building.Files
import HackVm.Proofs.Files.Overwriting

/-!
# Building is all or nothing

A request goes through its stages in a fixed order, and each stage needs the one before it:

```text
discovery      the source files of the input, the settings, the output file
compilation    the start-up code, then the files one after the other
opening        the output file, which is emptied
writing        the text
```

`BuildEnds` says once how a build can end, with one case for each stage that can fail, and
`build_ends` finds the case.  A preview has the first two stages only (`preview_of_finds`).  The
tree is not changed before the output is opened, except by log files.  So a build that fails leaves
everything as it was, unless the output takes a part of the text only, and then everything else.
Without log files the outcome depends on the tree and the host alone: `Request.Fails` tells the
failure from them, and `build_all_or_nothing` puts both halves together.
-/

namespace HackVm.World

open Files Log

variable {world : World} {request : Request} {paths : List Path} {settings : Settings}
  {output : Path} {failure : Failure}

/-! ## Discovery -/

namespace Request

/-- The settings for an input that is a directory, or is none. -/
def settingsFor (request : Request) (directory : Bool) : Settings :=
  ⟨request.bootstrap.getD directory, request.annotate, request.stackBase⟩

/-- The source files of the request's input, and the settings for it. -/
structure Finds (request : Request) (tree : Tree) (paths : List Path) (settings : Settings) :
    Prop where
  sources : tree.discover request.input = .ok paths
  settings : ∃ directory, tree.isDirectory request.input = .ok directory ∧
    settings = request.settingsFor directory

/-- The output file of the request: the given one, or else the one that belongs to the input. -/
def WritesTo (request : Request) (tree : Tree) (output : Path) : Prop :=
  match request.output with
  | some given => output = given
  | none => tree.outputPath request.input = .ok output

/-- The file that is opened for the output. -/
def Opens (request : Request) (tree : Tree) (location : Location) : Prop :=
  ∃ output, request.WritesTo tree output ∧ tree.openNew output = .ok location

/-- When sources were found, nothing else is missing for a compilation. -/
theorem finds_of_discover {tree : Tree} (h : tree.discover request.input = .ok paths) :
    (∃ settings, request.Finds tree paths settings) ∧ ∃ output, request.WritesTo tree output := by
  obtain ⟨directory, hdirectory⟩ := Tree.exists_isDirectory h
  refine ⟨⟨_, h, directory, hdirectory, rfl⟩, ?_⟩
  unfold WritesTo
  cases request.output with
  | some given => exact ⟨given, rfl⟩
  | none => exact Tree.exists_outputPath h

theorem Finds.settings_eq (h : request.Finds world.tree paths settings) :
    world.settings request = .ok settings := by
  obtain ⟨-, directory, hdirectory, rfl⟩ := h
  unfold World.settings settingsFor
  cases request.bootstrap with
  | some bootstrap => rfl
  | none =>
      simp only [hdirectory]
      rfl

end Request

private theorem plan_of_finds (hfinds : request.Finds world.tree paths settings)
    (houtput : request.WritesTo world.tree output) :
    world.plan request = .ok (paths, settings, output) := by
  unfold Request.WritesTo at houtput
  unfold plan
  rw [hfinds.sources, hfinds.settings_eq]
  cases hgiven : request.output with
  | some given =>
      rw [hgiven] at houtput
      rw [houtput]
      rfl
  | none =>
      rw [hgiven] at houtput
      simp only [houtput]
      rfl

/-! ## The ends of a request -/

/-- The ways in which a build ends. -/
inductive BuildEnds (world : World) (request : Request) : World → Except Failure Path → Prop
  | undiscovered {error : DiscoverError}
      (hdiscover : world.tree.discover request.input = .error error) :
      BuildEnds world request world (.error (.ofDiscover error))
  | uncompiled {paths : List Path} {settings : Settings} {compiled : World} {failure : Failure}
      (hfinds : request.Finds world.tree paths settings)
      (hcompile : (world.log (inputRecord request.input paths.length)).compileFiles settings paths =
        (compiled, .error failure)) :
      BuildEnds world request compiled (.error failure)
  | unopened {paths : List Path} {settings : Settings} {output : Path} {compiled : World}
      {text : String} {error : FileError} (hfinds : request.Finds world.tree paths settings)
      (houtput : request.WritesTo world.tree output)
      (hcompile : (world.log (inputRecord request.input paths.length)).compileFiles settings paths =
        (compiled, .ok text))
      (hopen : compiled.tree.openNew output = .error error) :
      BuildEnds world request compiled (.error (.file error))
  | short {paths : List Path} {settings : Settings} {output : Path} {compiled : World}
      {text : String} {location : Location} {shortfall : Shortfall}
      (hfinds : request.Finds world.tree paths settings)
      (houtput : request.WritesTo world.tree output)
      (hcompile : (world.log (inputRecord request.input paths.length)).compileFiles settings paths =
        (compiled, .ok text))
      (hopen : compiled.tree.openNew output = .ok location)
      (hshort : compiled.host.shortfall? location (Text.encode text) = some shortfall) :
      BuildEnds world request
        { compiled with
          tree := compiled.tree.put location (.file ((Text.encode text).take shortfall.taken)) }
        (.error (.file (.unwritten shortfall.fault)))
  | written {paths : List Path} {settings : Settings} {output : Path} {compiled : World}
      {text : String} {location : Location} (hfinds : request.Finds world.tree paths settings)
      (houtput : request.WritesTo world.tree output)
      (hcompile : (world.log (inputRecord request.input paths.length)).compileFiles settings paths =
        (compiled, .ok text))
      (hopen : compiled.tree.openNew output = .ok location)
      (hfull : compiled.host.shortfall? location (Text.encode text) = none) :
      BuildEnds world request
        ({ compiled with tree := compiled.tree.put location (.file (Text.encode text)) }.log
          (outputRecord output text)) (.ok output)

theorem BuildEnds.build_eq {after : World} {result : Except Failure Path}
    (h : BuildEnds world request after result) : world.build request = (after, result) := by
  unfold build
  cases h with
  | undiscovered hdiscover =>
      rw [plan, hdiscover]
      rfl
  | uncompiled hfinds hcompile =>
      obtain ⟨output, houtput⟩ := (Request.finds_of_discover hfinds.sources).2
      rw [plan_of_finds hfinds houtput]
      simp only [hcompile]
  | unopened hfinds houtput hcompile hopen =>
      rw [plan_of_finds hfinds houtput]
      simp only [hcompile, (Tree.WriteEnds.unopened hopen).write_eq]
  | short hfinds houtput hcompile hopen hshort =>
      rw [plan_of_finds hfinds houtput]
      simp only [hcompile, (Tree.WriteEnds.short hopen hshort).write_eq]
  | written hfinds houtput hcompile hopen hfull =>
      rw [plan_of_finds hfinds houtput]
      simp only [hcompile, (Tree.WriteEnds.full hopen hfull).write_eq]

/-- A build ends in one of these ways. -/
theorem build_ends (world : World) (request : Request) :
    BuildEnds world request (world.build request).1 (world.build request).2 := by
  obtain ⟨after, result, hends⟩ : ∃ after result, BuildEnds world request after result := by
    cases hdiscover : world.tree.discover request.input with
    | error error => exact ⟨_, _, .undiscovered hdiscover⟩
    | ok paths =>
        obtain ⟨⟨settings, hfinds⟩, output, houtput⟩ := Request.finds_of_discover hdiscover
        cases hcompile : (world.log (inputRecord request.input paths.length)).compileFiles settings
            paths with
        | mk compiled result =>
            cases result with
            | error failure => exact ⟨_, _, .uncompiled hfinds hcompile⟩
            | ok text =>
                obtain ⟨tree, written, hwrite⟩ : ∃ tree written, compiled.tree.WriteEnds output
                    (Text.encode text) compiled.host.shortfall? tree written :=
                  ⟨_, _, compiled.tree.write_ends _ _ _⟩
                cases hwrite with
                | unopened hopen => exact ⟨_, _, .unopened hfinds houtput hcompile hopen⟩
                | short hopen hshort => exact ⟨_, _, .short hfinds houtput hcompile hopen hshort⟩
                | full hopen hfull => exact ⟨_, _, .written hfinds houtput hcompile hopen hfull⟩
  rw [hends.build_eq]
  exact hends

/-- A fault in the files is the fault of the build. -/
theorem build_of_uncompiled (hfinds : request.Finds world.tree paths settings)
    (herror : ((world.log (inputRecord request.input paths.length)).compileFiles settings
      paths).2 = .error failure) : (world.build request).2 = .error failure := by
  rw [(BuildEnds.uncompiled hfinds (Prod.ext rfl herror)).build_eq]

theorem preview_of_finds (hfinds : request.Finds world.tree paths settings) :
    world.preview request = world.compileFiles settings paths := by
  simp only [preview, hfinds.settings_eq, hfinds.sources]

/-- A preview asks for its settings before its sources, but an input that cannot be asked what it is
has no sources for the same reason. -/
theorem preview_of_undiscovered {error : DiscoverError}
    (hdiscover : world.tree.discover request.input = .error error) :
    world.preview request = (world, .error (.ofDiscover error)) := by
  unfold preview
  cases hsettings : world.settings request with
  | ok settings => simp only [hdiscover]
  | error other =>
      have hdirectory : world.tree.isDirectory request.input = .error other := by
        unfold World.settings at hsettings
        split at hsettings
        · exact absurd hsettings (by simp)
        · cases hask : world.tree.isDirectory request.input with
          | ok directory => simp [hask, Except.map] at hsettings
          | error asked => simpa [hask, Except.map] using hsettings
      rw [Tree.discover_of_isDirectory_error hdirectory] at hdiscover
      rw [← Except.error.inj hdiscover]
      rfl

/-! ## What a request changes -/

/-- Up to the end of its compilation a request is only logged. -/
theorem logged_of_compileFiles {record : Record} {compiled : World}
    {result : Except Failure String}
    (hcompile : (world.log record).compileFiles settings paths = (compiled, result)) :
    world.Logged compiled := by
  have hrest := logged_compileFiles (world.log record) settings paths
  rw [hcompile] at hrest
  exact .step [record] hrest

/-- Without log files, a build that fails leaves the tree as it was, or else a part of the text in
the file that it has opened. -/
theorem tree_of_build_error (hquiet : world.Quiet) (h : (world.build request).2 = .error failure) :
    (world.build request).1.tree = world.tree ∨
      ∃ location content fault, failure = .file (.unwritten fault) ∧
        request.Opens world.tree location ∧
        (world.build request).1.tree = world.tree.put location (.file content) := by
  have hends := world.build_ends request
  rw [h] at hends
  generalize (world.build request).1 = after at hends ⊢
  have hcompiled : ∀ {compiled : World}, world.Logged compiled → compiled.tree = world.tree :=
    fun hlogged => hlogged.onlyLogged.tree_eq hquiet
  cases hends with
  | undiscovered => exact .inl rfl
  | uncompiled _ hcompile => exact .inl (hcompiled (logged_of_compileFiles hcompile))
  | unopened _ _ hcompile => exact .inl (hcompiled (logged_of_compileFiles hcompile))
  | short _ houtput hcompile hopen =>
      dsimp only
      rw [hcompiled (logged_of_compileFiles hcompile)] at hopen ⊢
      exact .inr ⟨_, _, _, rfl, ⟨_, houtput, hopen⟩, rfl⟩

/-- A preview is only logged. -/
theorem onlyLogged_preview (world : World) (request : Request) :
    OnlyLogged world (world.preview request).1 := by
  cases hdiscover : world.tree.discover request.input with
  | error error =>
      rw [preview_of_undiscovered hdiscover]
      exact .refl world
  | ok paths =>
      obtain ⟨⟨settings, hfinds⟩, -⟩ := Request.finds_of_discover hdiscover
      rw [preview_of_finds hfinds]
      exact onlyLogged_compileFiles world settings paths

/-! ## Without log files -/

/-- The failures of a request, as the tree before it and the host tell them. -/
inductive Request.Fails (request : Request) (tree : Tree) (host : Host) : Failure → Prop
  | discovery {error : DiscoverError} (hdiscover : tree.discover request.input = .error error) :
      Fails request tree host (.ofDiscover error)
  | compilation {paths : List Path} {settings : Settings} {failure : Failure}
      (hfinds : request.Finds tree paths settings)
      (hfails : FirstFails tree settings paths failure) : Fails request tree host failure
  | opening {paths : List Path} {settings : Settings} {sources : List Source} {text : String}
      {output : Path} {error : FileError} (hfinds : request.Finds tree paths settings)
      (houtput : request.WritesTo tree output) (hreads : Reads tree paths sources)
      (hcompiled : compileText settings sources = .ok text)
      (hopen : tree.openNew output = .error error) : Fails request tree host (.file error)
  | writing {paths : List Path} {settings : Settings} {sources : List Source} {text : String}
      {output : Path} {location : Location} {shortfall : Shortfall}
      (hfinds : request.Finds tree paths settings) (houtput : request.WritesTo tree output)
      (hreads : Reads tree paths sources) (hcompiled : compileText settings sources = .ok text)
      (hopen : tree.openNew output = .ok location)
      (hshort : host.shortfall? location (Text.encode text) = some shortfall) :
      Fails request tree host (.file (.unwritten shortfall.fault))

/-- A compilation of files that are no log files gives the text of the sources in the tree. -/
theorem compileFiles_eq_ok_iff_of_steady (hsteady : world.Steady paths) {text : String} :
    (world.compileFiles settings paths).2 = .ok text ↔
      ∃ sources, Reads world.tree paths sources ∧ compileText settings sources = .ok text := by
  simp only [← compilationPasses_iff_of_steady hsteady]
  constructor
  · intro hok
    obtain ⟨sources, hpass⟩ := compileFiles_eq_ok_iff.mp (Prod.ext rfl hok)
    exact ⟨sources, _, hpass⟩
  · rintro ⟨sources, final, hpass⟩
    rw [hpass.compileFiles_eq]

/-- It fails as the tree tells. -/
theorem compileFiles_eq_error_iff_of_steady (hsteady : world.Steady paths) :
    (world.compileFiles settings paths).2 = .error failure ↔
      FirstFails world.tree settings paths failure := by
  rw [compileFiles_eq_error_iff, compilationFails_iff_of_steady hsteady]

theorem compileFiles_eq_ok_iff_of_quiet (hquiet : world.Quiet) {text : String} :
    (world.compileFiles settings paths).2 = .ok text ↔
      ∃ sources, Reads world.tree paths sources ∧ compileText settings sources = .ok text :=
  compileFiles_eq_ok_iff_of_steady (hquiet.steady paths)

theorem compileFiles_eq_error_iff_of_quiet (hquiet : world.Quiet) :
    (world.compileFiles settings paths).2 = .error failure ↔
      FirstFails world.tree settings paths failure :=
  compileFiles_eq_error_iff_of_steady (hquiet.steady paths)

/-- Without log files, a record leaves whatever tree there is by then. -/
private theorem tree_log_of_quiet (hquiet : world.Quiet) (tree : Tree) (record : Record) :
    (log { world with tree } record).tree = tree :=
  (onlyLogged_log { world with tree } record).tree_eq hquiet

/-- Without log files, what is compiled in the world of a build is what the sources in the tree
give, and the tree and the host are the same. -/
private theorem compiled_of_quiet (hquiet : world.Quiet) {record : Record} {compiled : World}
    {text : String}
    (hcompile : (world.log record).compileFiles settings paths = (compiled, .ok text)) :
    (∃ sources, Reads world.tree paths sources ∧ compileText settings sources = .ok text) ∧
      compiled.tree = world.tree ∧ compiled.host = world.host ∧ compiled.Quiet := by
  have hfound := world.onlyLogged_log record
  have hcompiled := (logged_of_compileFiles hcompile).onlyLogged
  have htext :=
    (compileFiles_eq_ok_iff_of_quiet (hfound.quiet hquiet)).mp (congrArg Prod.snd hcompile)
  rw [hfound.tree_eq hquiet] at htext
  exact ⟨htext, hcompiled.tree_eq hquiet, hcompiled.host_eq, hcompiled.quiet hquiet⟩

/-- Conversely, what the sources in the tree give is what is compiled. -/
private theorem exists_compiled_of_quiet (hquiet : world.Quiet) {sources : List Source}
    {text : String} (hreads : Reads world.tree paths sources)
    (htext : compileText settings sources = .ok text) (record : Record) :
    ∃ compiled, (world.log record).compileFiles settings paths = (compiled, .ok text) ∧
      compiled.tree = world.tree ∧ compiled.host = world.host := by
  have hfound := world.onlyLogged_log record
  rw [← hfound.tree_eq hquiet] at hreads
  have hok := (compileFiles_eq_ok_iff_of_quiet (hfound.quiet hquiet)).mpr ⟨sources, hreads, htext⟩
  have hcompile : (world.log record).compileFiles settings paths = (_, .ok text) :=
    Prod.ext rfl hok
  have hcompiled := (logged_of_compileFiles hcompile).onlyLogged
  exact ⟨_, hcompile, hcompiled.tree_eq hquiet, hcompiled.host_eq⟩

/-- Without log files, a build that succeeds writes the text of the sources in the tree, and does
nothing else to it. -/
theorem put_of_build_ok (hquiet : world.Quiet) (hok : (world.build request).2 = .ok output) :
    ∃ paths settings sources text location, request.Finds world.tree paths settings ∧
      request.WritesTo world.tree output ∧ Reads world.tree paths sources ∧
      compileText settings sources = .ok text ∧ world.tree.openNew output = .ok location ∧
      (world.build request).1.tree = world.tree.put location (.file (Text.encode text)) := by
  have hends := world.build_ends request
  rw [hok] at hends
  generalize (world.build request).1 = after at hends ⊢
  cases hends with
  | @written paths settings _ compiled text location hfinds houtput hcompile hopen =>
      obtain ⟨⟨sources, hreads, htext⟩, htree, -, hstill⟩ := compiled_of_quiet hquiet hcompile
      rw [htree] at hopen
      refine ⟨paths, settings, sources, text, location, hfinds, houtput, hreads, htext, hopen, ?_⟩
      rw [tree_log_of_quiet hstill, htree]

/-- Without log files, a build fails as the tree and the host tell. -/
theorem build_eq_error_iff_of_quiet (hquiet : world.Quiet) :
    (world.build request).2 = .error failure ↔ request.Fails world.tree world.host failure := by
  have hlogged := fun count => world.onlyLogged_log (inputRecord request.input count)
  have hstill := fun count => (hlogged count).quiet hquiet
  have htree := fun count => (hlogged count).tree_eq hquiet
  constructor
  · intro herror
    have hends := world.build_ends request
    rw [herror] at hends
    generalize (world.build request).1 = after at hends
    cases hends with
    | undiscovered hdiscover => exact .discovery hdiscover
    | uncompiled hfinds hcompile =>
        have hfails :=
          (compileFiles_eq_error_iff_of_quiet (hstill _)).mp (congrArg Prod.snd hcompile)
        rw [htree] at hfails
        exact .compilation hfinds hfails
    | unopened hfinds houtput hcompile hopen =>
        obtain ⟨⟨sources, hreads, htext⟩, hsame, -, -⟩ := compiled_of_quiet hquiet hcompile
        rw [hsame] at hopen
        exact .opening hfinds houtput hreads htext hopen
    | short hfinds houtput hcompile hopen hshort =>
        obtain ⟨⟨sources, hreads, htext⟩, hsame, hhost, -⟩ := compiled_of_quiet hquiet hcompile
        rw [hsame] at hopen
        rw [hhost] at hshort
        exact .writing hfinds houtput hreads htext hopen hshort
  · intro hfails
    cases hfails with
    | discovery hdiscover => rw [(BuildEnds.undiscovered hdiscover).build_eq]
    | @compilation paths settings _ hfinds hfails =>
        rw [← htree paths.length] at hfails
        exact build_of_uncompiled hfinds
          ((compileFiles_eq_error_iff_of_quiet (hstill _)).mpr hfails)
    | opening hfinds houtput hreads htext hopen =>
        obtain ⟨compiled, hcompile, hsame, -⟩ :=
          exists_compiled_of_quiet hquiet hreads htext _
        rw [← hsame] at hopen
        rw [(BuildEnds.unopened hfinds houtput hcompile hopen).build_eq]
    | writing hfinds houtput hreads htext hopen hshort =>
        obtain ⟨compiled, hcompile, hsame, hhost⟩ :=
          exists_compiled_of_quiet hquiet hreads htext _
        rw [← hsame] at hopen
        rw [← hhost] at hshort
        rw [(BuildEnds.short hfinds houtput hcompile hopen hshort).build_eq]

/-- A build either changes no file or writes one.  When it fails, the tree is the one before it,
unless the output was opened and did not take the whole text, and then every other entry is as it
was.  When it succeeds, the output holds the code of the input's sources as they were before, even
where it is itself one of them, and no other entry is different.  It fails for the first stage that
does, and in the compilation for the start-up code or else for the first file that cannot be read or
has a fault, the files before it having been read and compiled. -/
theorem build_all_or_nothing (world : World) (request : Request) (hquiet : world.Quiet) :
    (∀ failure, (world.build request).2 = .error failure →
      ((∀ fault, failure ≠ .file (.unwritten fault)) →
        (world.build request).1.tree = world.tree) ∧
      ∀ other, ¬ request.Opens world.tree other →
        (world.build request).1.tree.entryAt other = world.tree.entryAt other) ∧
    (∀ output, (world.build request).2 = .ok output →
      ∃ paths settings sources text location, request.Finds world.tree paths settings ∧
        world.tree.Offers request.input paths ∧ request.WritesTo world.tree output ∧
        Reads world.tree paths sources ∧ compileText settings sources = .ok text ∧
        (world.build request).1.tree.locate output = .ok location ∧
        (world.build request).1.tree.read output = .ok (Text.encode text) ∧
        ∀ other, other ≠ location →
          (world.build request).1.tree.entryAt other = world.tree.entryAt other) ∧
    (∀ failure, (world.build request).2 = .error failure ↔
      request.Fails world.tree world.host failure) := by
  refine ⟨fun failure herror => ?_, fun output hok => ?_, fun failure => ?_⟩
  · rcases tree_of_build_error hquiet herror with
      hkept | ⟨location, content, fault, hfault, hopens, hput⟩
    · exact ⟨fun _ => hkept, fun other _ => by rw [hkept]⟩
    · refine ⟨fun hnever => absurd hfault (hnever fault), fun other hother => ?_⟩
      have hne : other ≠ location := by
        rintro rfl
        exact hother hopens
      rw [hput, world.tree.entryAt_put_of_ne hne]
  · obtain ⟨paths, settings, sources, text, location, hfinds, houtput, hreads, htext, hopen,
      hput⟩ := put_of_build_ok hquiet hok
    obtain ⟨hlocate, hread⟩ := Tree.read_of_openNew hopen (Text.encode text)
    rw [hput]
    exact ⟨paths, settings, sources, text, location, hfinds, Tree.offers_of_discover hfinds.sources,
      houtput, hreads, htext, hlocate, hread,
      fun other hother => world.tree.entryAt_put_of_ne hother _⟩
  · exact build_eq_error_iff_of_quiet hquiet

/-- A source file that is its own output is read before it is written over, and a fault in it keeps
it as it is. -/
theorem build_all_or_nothing_sample :
    let path : Path := ⟨"", ["Main.vm"]⟩
    let holding := fun text => World.closeLogging
      ⟨⟨[(["Main.vm"], .file (Text.encode text))], []⟩, .initial, [], "", {}⟩
    let request : Request := ⟨path, some path, none, false, 256⟩
    let good := holding "push constant 7\n"
    let bad := holding "add\npop constant 7\n"
    good.Quiet ∧ bad.Quiet ∧ (good.build request).2 = .ok path ∧
      (∃ paths settings sources text, request.Finds good.tree paths settings ∧
        Reads good.tree paths sources ∧ compileText settings sources = .ok text ∧
        (good.build request).1.tree.read path = .ok (Text.encode text)) ∧
      (bad.build request).2 = .error (.refused ⟨.popConstant, .pop "constant" 7, "Main"⟩) ∧
      request.Fails bad.tree bad.host (.refused ⟨.popConstant, .pop "constant" 7, "Main"⟩) ∧
      (bad.build request).1.tree = bad.tree := by
  intro path holding request good bad
  have hgood : good.Quiet := quiet_closeLogging _
  have hbad : bad.Quiet := quiet_closeLogging _
  have hok : (good.build request).2 = .ok path := by decide +kernel
  have herror : (bad.build request).2 =
      .error (.refused ⟨.popConstant, .pop "constant" 7, "Main"⟩) := by decide +kernel
  obtain ⟨-, hwritten, -⟩ := build_all_or_nothing good request hgood
  obtain ⟨paths, settings, sources, text, -, hfinds, -, -, hreads, htext, -, hread, -⟩ :=
    hwritten path hok
  obtain ⟨hkept, -, hfails⟩ := build_all_or_nothing bad request hbad
  exact ⟨hgood, hbad, hok, ⟨paths, settings, sources, text, hfinds, hreads, htext, hread⟩, herror,
    (hfails _).mp herror, (hkept _ herror).1 (by simp)⟩

private def faultySample : World :=
  closeLogging
    ⟨⟨[(["P"], .directory), (["P", "A.vm"], .file (Text.encode "foo\n")),
      (["P", "B.vm"], .file (Text.encode "bar\n"))], []⟩, .initial, [], "", {}⟩

private theorem discover_faultySample :
    faultySample.tree.discover ⟨"", ["P"]⟩ = .ok [⟨"", ["P", "A.vm"]⟩, ⟨"", ["P", "B.vm"]⟩] := by
  have hnames : faultySample.tree.namesAt ["P"] = ["A.vm", "B.vm"] :=
    List.mergeSort_of_pairwise (by decide)
  have hlocate : faultySample.tree.locate ⟨"", ["P"]⟩ = .ok ["P"] := by decide +kernel
  have hlook : faultySample.tree.lookAt ⟨"", ["P"]⟩ = .ok (some .directory) := by decide +kernel
  simp only [Tree.discover, hlook, Tree.sourcesIn, hlocate, hnames]
  decide +kernel

/-- An output that takes nothing of the text is empty after a build that fails.  And start-up code
that cannot be emitted is the failure of a build before any fault in its files. -/
theorem failed_build_empties_output :
    let full : Host :=
      { shortfall? := fun _ _ => some ⟨0, .system 28 "No space left on device"⟩ }
    let old := Text.encode "@SP\n"
    let disk := closeLogging
      ⟨⟨[(["Main.vm"], .file (Text.encode "add\n")), (["Main.asm"], .file old)], []⟩, .initial, [],
        "", full⟩
    let built := disk.build ⟨⟨"", ["Main.vm"]⟩, none, none, false, 256⟩
    let based := fun stackBase =>
      (faultySample.build ⟨⟨"", ["P"]⟩, none, none, false, stackBase⟩).2
    disk.Quiet ∧ faultySample.Quiet ∧
      (built.2 = .error (.file (.unwritten (.system 28 "No space left on device"))) ∧
        disk.tree.content? ["Main.asm"] = some old ∧
        built.1.tree.content? ["Main.asm"] = some []) ∧
      based 256 = .error (.malformed ⟨.unknownWord "foo", "A", 1, "foo"⟩) ∧
      based (10 ^ Text.maxDigits : Nat) = .error (.number .tooLong) := by
  intro full old disk built based
  have hquiet : faultySample.Quiet := quiet_closeLogging _
  have hdirectory : faultySample.tree.isDirectory ⟨"", ["P"]⟩ = .ok true := by decide +kernel
  have hfinds : ∀ stackBase, Request.Finds ⟨⟨"", ["P"]⟩, none, none, false, stackBase⟩
      faultySample.tree [⟨"", ["P", "A.vm"]⟩, ⟨"", ["P", "B.vm"]⟩] ⟨true, false, stackBase⟩ :=
    fun _ => ⟨discover_faultySample, true, hdirectory, rfl⟩
  refine ⟨quiet_closeLogging _, hquiet, by decide +kernel, ?_, ?_⟩
  · exact build_of_uncompiled (hfinds 256) (by decide +kernel)
  · refine (build_eq_error_iff_of_quiet hquiet).mpr (.compilation (hfinds _) (.startUp ?_))
    intro hstarts
    have hwritable := hstarts rfl
    rw [Text.isWritable] at hwritable
    -- The limit is kept closed: ten to its power is not to be computed.
    generalize Text.maxDigits = limit at hwritable
    simp at hwritable

/-! ## A preview shows what a build writes -/

/-- Without log files, what a compilation gives depends on the tree alone. -/
theorem compileFiles_eq_of_tree_eq {other : World} (hquiet : world.Quiet) (hother : other.Quiet)
    (htree : other.tree = world.tree) (settings : Settings) (paths : List Path) :
    (other.compileFiles settings paths).2 = (world.compileFiles settings paths).2 := by
  cases hresult : (world.compileFiles settings paths).2 with
  | error failure =>
      rw [compileFiles_eq_error_iff_of_quiet hquiet, ← htree] at hresult
      exact (compileFiles_eq_error_iff_of_quiet hother).mpr hresult
  | ok text =>
      rw [compileFiles_eq_ok_iff_of_quiet hquiet, ← htree] at hresult
      exact (compileFiles_eq_ok_iff_of_quiet hother).mpr hresult

/-- Without log files, a build whose output can be opened and takes whatever is written ends as the
preview of its input does, and then its output holds the text that the preview shows. -/
theorem build_agrees_with_preview {other : World} (request : Request) (hquiet : world.Quiet)
    (hother : other.Quiet) (htree : other.tree = world.tree) {location : Location}
    (hopen : world.tree.openNew output = .ok location)
    (hfull : ∀ content, other.host.shortfall? location content = none) :
    let built := other.build { request with output := some output }
    built.2 = (world.preview request).2.map (fun _ => output) ∧
      ∀ text, (world.preview request).2 = .ok text →
        built.1.tree.read output = .ok (Text.encode text) := by
  intro built
  cases hdiscover : world.tree.discover request.input with
  | error error =>
      have hbuilt : built = (other, .error (.ofDiscover error)) := by
        apply BuildEnds.build_eq
        rw [← htree] at hdiscover
        exact .undiscovered hdiscover
      rw [hbuilt, preview_of_undiscovered hdiscover]
      exact ⟨rfl, fun text htext => absurd htext (by simp)⟩
  | ok paths =>
      obtain ⟨⟨settings, hfinds⟩, -⟩ := Request.finds_of_discover hdiscover
      rw [preview_of_finds hfinds]
      have hfinds' : Request.Finds { request with output := some output } other.tree paths
          settings := by
        rw [htree]
        exact ⟨hfinds.sources, hfinds.settings⟩
      have hfound := other.onlyLogged_log (inputRecord request.input paths.length)
      have hsame := compileFiles_eq_of_tree_eq hquiet (hfound.quiet hother)
        ((hfound.tree_eq hother).trans htree) settings paths
      cases hcompile : (other.log (inputRecord request.input paths.length)).compileFiles settings
          paths with
      | mk compiled result =>
          rw [hcompile] at hsame
          rw [← hsame]
          cases result with
          | error failure =>
              have hbuilt : built = (compiled, .error failure) :=
                (BuildEnds.uncompiled hfinds' hcompile).build_eq
              rw [hbuilt]
              exact ⟨rfl, fun text htext => absurd htext (by simp)⟩
          | ok text =>
              obtain ⟨-, hkept, hhost, hstill⟩ := compiled_of_quiet hother hcompile
              rw [← htree, ← hkept] at hopen
              rw [← hhost] at hfull
              have hbuilt := (BuildEnds.written hfinds' rfl hcompile hopen (hfull _)).build_eq
              refine ⟨congrArg Prod.snd hbuilt, fun shown hshown => ?_⟩
              rw [← Except.ok.inj hshown, show built = _ from hbuilt, tree_log_of_quiet hstill]
              exact (Tree.read_of_openNew hopen _).2

end HackVm.World
