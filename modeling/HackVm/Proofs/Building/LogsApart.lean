import HackVm.Proofs.Building.Requests
import HackVm.Proofs.Logging.InPlace

/-!
# Builds beside log files

A tree is not at rest while a program is compiled.  Records are logged before the first source is
read, between any two sources and after the output was written, and log files grow with them.  A
build does not notice if every log file is there from the start and none of them is a source,
`World.LogsApart`.

What becomes of a request is then told by the tree before it and the host.  `Request.Yields tree
host job` collects what it comes to if nothing fails:

```text
paths, settings, sources     what is found and read
text                         what it is compiled to
output, location             where the text is written, as a path and in the tree
```

A job is done (`Yields.build`), and whatever was built was such a job (`exists_yields`).  A fault in
the sources, an output that cannot be opened or one that falls short is reported as it is found
(`LogsApart.build_of_fault`, `LogsApart.build_of_unopened`, `LogsApart.build_of_short`).
-/

namespace HackVm.World

open Files Log

/-- Every log file is there, and none of the paths leads to one. -/
structure LogsApart (world : World) (paths : List Path) : Prop where
  exist : world.LogsExist
  apart : ∀ path ∈ paths, ∀ location, world.tree.locate path = .ok location →
    ¬ world.registry.LogsTo location

theorem LogsApart.of_locate {world : World} {path : Path} {location : Location}
    (hexist : world.LogsExist) (hlocate : world.tree.locate path = .ok location)
    (hlogs : ¬ world.registry.LogsTo location) : world.LogsApart [path] := by
  refine ⟨hexist, fun other hother found hfound => ?_⟩
  rw [List.mem_singleton.mp hother] at hfound
  rwa [Except.ok.inj (hfound.symm.trans hlocate)]

/-- What a request comes to. -/
structure Job where
  paths : List Path
  settings : Settings
  sources : List Source
  text : String
  output : Path
  location : Location
  deriving DecidableEq, Repr

/-- The request finds the sources of the job, which are compiled to its text, and opens its output,
which takes the text. -/
structure Request.Yields (request : Request) (tree : Tree) (host : Host) (job : Job) : Prop where
  finds : request.Finds tree job.paths job.settings
  writesTo : request.WritesTo tree job.output
  reads : Reads tree job.paths job.sources
  compiled : compileText job.settings job.sources = .ok job.text
  opens : tree.openNew job.output = .ok job.location
  takes : host.shortfall? job.location (Text.encode job.text) = none

variable {world final : World} {request : Request} {paths : List Path} {settings : Settings}
  {sources : List Source} {output : Path} {location : Location} {content : Text.Bytes}

/-! ## Writing between records -/

/-- Records were logged, the content was written to a file, and more records were logged. -/
inductive Wrote (world : World) (location : Location) (content : Text.Bytes) (final : World) : Prop
  | mk {compiled : World} (hbefore : world.Logged compiled)
      (hfile : compiled.tree.isDirectoryAt location = false)
      (hafter : Logged { compiled with tree := compiled.tree.put location (.file content) } final) :
      Wrote world location content final

namespace Wrote

theorem host_eq (h : world.Wrote location content final) : final.host = world.host := by
  obtain ⟨hbefore, -, hafter⟩ := h
  exact hafter.onlyLogged.host_eq.trans hbefore.onlyLogged.host_eq

theorem logsTo_iff (h : world.Wrote location content final) {other : Location} :
    final.registry.LogsTo other ↔ world.registry.LogsTo other := by
  obtain ⟨hbefore, -, hafter⟩ := h
  exact hafter.onlyLogged.logsTo_iff.trans hbefore.onlyLogged.logsTo_iff

/-- The file was written last, unless it is a log file. -/
theorem entryAt_eq (h : world.Wrote location content final)
    (hlogs : ¬ world.registry.LogsTo location) :
    final.tree.entryAt location = some (.file content) := by
  obtain @⟨compiled, hbefore, hfile, hafter⟩ := h
  apply Tree.entryAt_of_content?
  have hkept : ¬ compiled.registry.LogsTo location :=
    fun hlogged => hlogs (hbefore.onlyLogged.logsTo_iff.mp hlogged)
  calc final.tree.content? location
      = (compiled.tree.put location (.file content)).content? location :=
        hafter.onlyLogged.files location hkept
    _ = some content :=
        Tree.content?_put_file _ (Tree.ne_nil_of_not_isDirectoryAt hfile) content

/-- In a world whose log files exist, nothing is added but the file that was written. -/
theorem overwritten (h : world.Wrote location content final) (hexist : world.LogsExist) :
    world.tree.Overwritten final.tree (fun other => world.registry.LogsTo other ∨ other = location)
      (if (world.tree.entryAt location).isSome then [] else [location]) := by
  obtain @⟨compiled, hbefore, hfile, hafter⟩ := h
  have hfirst := hbefore.overwritten hexist
  have hput := Tree.overwritten_put_file hfile content
  rw [hfirst.isSome_eq] at hput
  have hlast := hafter.overwritten ((hbefore.logsExist hexist).of_overwritten hput fun _ => id)
  have hboth := (hfirst.mono fun _ => Or.inl).trans (hput.mono fun _ => Or.inr)
  have hall := hboth.trans (hlast.mono fun _ hlogs => .inl (hbefore.onlyLogged.logsTo_iff.mp hlogs))
  rwa [List.nil_append, List.append_nil] at hall

theorem logsExist (h : world.Wrote location content final) (hexist : world.LogsExist) :
    final.LogsExist :=
  hexist.of_overwritten (h.overwritten hexist) fun _ => h.logsTo_iff.mp

end Wrote

/-! ## Compiling -/

/-- Beside log files, the compilation gives what the sources in the files give, and is only
logged. -/
private theorem LogsApart.exists_compiled (h : world.LogsApart paths)
    (hreads : Reads world.tree paths sources) (settings : Settings) (record : Record) :
    ∃ compiled, world.Logged compiled ∧ (world.log record).compileFiles settings paths =
      (compiled, compileText settings sources) := by
  have hsteady : world.Steady paths := h.exist.steady h.apart
  have hfound : world.Logged (world.log record) := .logAll world [record]
  have hresult := compileFiles_eq_of_reads (hsteady.logged hfound)
    (hreads.congr (hsteady _ hfound)) settings
  have hcompile : (world.log record).compileFiles settings paths =
      (((world.log record).compileFiles settings paths).1, compileText settings sources) :=
    Prod.ext rfl hresult
  exact ⟨_, logged_of_compileFiles hcompile, hcompile⟩

section Compiled

variable (h : world.LogsApart paths) (hfinds : request.Finds world.tree paths settings)
  (hreads : Reads world.tree paths sources)
include h hfinds hreads

/-- A fault in the sources is the fault of the build. -/
theorem LogsApart.build_of_fault {failure : Failure}
    (hfault : compileText settings sources = .error failure) :
    (world.build request).2 = .error failure := by
  obtain ⟨compiled, -, hcompile⟩ := h.exists_compiled hreads settings
    (inputRecord request.input paths.length)
  rw [hfault] at hcompile
  rw [(BuildEnds.uncompiled hfinds hcompile).build_eq]

variable {text : String} (htext : compileText settings sources = .ok text)
  (houtput : request.WritesTo world.tree output)
include htext houtput

/-- An output that cannot be opened is found when all else is done. -/
theorem LogsApart.build_of_unopened {error : FileError}
    (hopen : world.tree.openNew output = .error error) :
    (world.build request).2 = .error (.file error) := by
  obtain ⟨compiled, hlogged, hcompile⟩ := h.exists_compiled hreads settings
    (inputRecord request.input paths.length)
  rw [htext] at hcompile
  rw [← (hlogged.overwritten h.exist).openNew_eq] at hopen
  rw [(BuildEnds.unopened hfinds houtput hcompile hopen).build_eq]

/-- So is one that takes a part of the text only. -/
theorem LogsApart.build_of_short {shortfall : Shortfall}
    (hopen : world.tree.openNew output = .ok location)
    (hshort : world.host.shortfall? location (Text.encode text) = some shortfall) :
    (world.build request).2 = .error (.file (.unwritten shortfall.fault)) := by
  obtain ⟨compiled, hlogged, hcompile⟩ := h.exists_compiled hreads settings
    (inputRecord request.input paths.length)
  rw [htext] at hcompile
  rw [← (hlogged.overwritten h.exist).openNew_eq] at hopen
  rw [← hlogged.onlyLogged.host_eq] at hshort
  rw [(BuildEnds.short hfinds houtput hcompile hopen hshort).build_eq]

end Compiled

/-! ## Jobs -/

/-- A job is done: its text is written where its output is opened. -/
theorem Request.Yields.build {job : Job} (hyields : request.Yields world.tree world.host job)
    (h : world.LogsApart job.paths) :
    (world.build request).2 = .ok job.output ∧
      world.Wrote job.location (Text.encode job.text) (world.build request).1 := by
  obtain ⟨hfinds, houtput, hreads, htext, hopen, htakes⟩ := hyields
  obtain ⟨compiled, hlogged, hcompile⟩ := h.exists_compiled hreads job.settings
    (inputRecord request.input job.paths.length)
  rw [htext] at hcompile
  rw [← (hlogged.overwritten h.exist).openNew_eq] at hopen
  rw [← hlogged.onlyLogged.host_eq] at htakes
  rw [(BuildEnds.written hfinds houtput hcompile hopen htakes).build_eq]
  exact ⟨rfl, .mk hlogged (Tree.openNew_eq_ok hopen).2 (.logAll _ _)⟩

/-- What was built was a job that the request comes to. -/
theorem exists_yields (hok : (world.build request).2 = .ok output)
    (h : ∀ paths, world.tree.discover request.input = .ok paths → world.LogsApart paths) :
    ∃ job, request.Yields world.tree world.host job ∧ job.output = output := by
  have hends := world.build_ends request
  rw [hok] at hends
  generalize (world.build request).1 = after at hends
  cases hends with
  | @written paths settings _ compiled text location hfinds houtput hcompile hopen htakes =>
      have hapart := h paths hfinds.sources
      have hsteady : world.Steady paths := hapart.exist.steady hapart.apart
      have hfound : world.Logged (world.log (inputRecord request.input paths.length)) :=
        .logAll world _
      obtain ⟨sources, hreads, htext⟩ := (compileFiles_eq_ok_iff_of_steady
        (hsteady.logged hfound)).mp (congrArg Prod.snd hcompile)
      have hlogged := logged_of_compileFiles hcompile
      rw [(hlogged.overwritten hapart.exist).openNew_eq] at hopen
      rw [hlogged.onlyLogged.host_eq] at htakes
      refine ⟨⟨paths, settings, sources, text, output, location⟩,
        ⟨hfinds, houtput, ?_, htext, hopen, htakes⟩, rfl⟩
      exact hreads.congr fun path hpath => (hsteady _ hfound path hpath).symm

end HackVm.World
