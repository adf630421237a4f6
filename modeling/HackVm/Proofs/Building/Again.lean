import HackVm.Proofs.Building.LogsApart
import HackVm.Proofs.Files.Outputs

/-!
# Building again

An output is written into the directory that is searched for sources.  When the same request is
made again, that directory has one name more than the first time, and log files have grown:

```text
            first time              second time
tree        as it was               with the output, be it new or written over
sources     found, read             the output is not named as a source, and nothing else is new
output      opened, written         the same file, written over with the same text
```

So the request comes to the same job as before (`Request.Yields.again`), and the second build leaves
every file but the log files as it finds it.
-/

namespace HackVm.World

open Files Log

variable {world final : World} {request : Request} {paths : List Path} {output : Path} {job : Job}
  {content : Text.Bytes}

/-- Where the sources were found, log files are apart from them also when files were written. -/
private theorem LogsApart.of_wrote {location : Location} (h : world.LogsApart paths)
    (hwrote : world.Wrote location content final)
    (hdiscover : world.tree.discover request.input = .ok paths) : final.LogsApart paths where
  exist := hwrote.logsExist h.exist
  apart := by
    intro path hpath found hfound hlogs
    obtain ⟨-, source, -, hlocate, -⟩ := Tree.source_of_discover hdiscover hpath
    have hsame := (hwrote.overwritten h.exist).locate_eq_ok hlocate
    obtain rfl : source = found := Except.ok.inj (hsame.symm.trans hfound)
    exact h.apart path hpath source hlocate (hwrote.logsTo_iff.mp hlogs)

/-- The output that a directory was given is not named as a source. -/
private theorem added_is_no_source {tree after : Tree} {input : Path} {location opened : Location}
    {name : String} (houtput : tree.outputPath input = .ok output)
    (hlocate : tree.locate input = .ok location) (hdirectory : tree.isDirectoryAt location = true)
    (hopen : after.openNew output = .ok opened) (hthere : (after.entryAt opened).isSome = true)
    (hname : location ++ [name] = opened) :
    (after.isFile (input.child name)).isOk = true ∧ (input.child name).suffix ≠ sourceSuffix := by
  have hstem := Tree.name_of_outputPath houtput
  have hsame : name = output.name := by
    have hlast := Tree.getLast?_of_output hstem hopen
    rw [← hname, List.getLast?_concat] at hlast
    exact Option.some.inj hlast
  rw [hsame, ← Tree.outputPath_eq_child hlocate hdirectory houtput]
  constructor
  · rw [Tree.isFile_of_locate (Tree.locate_of_openNew hopen hthere)]
    rfl
  · obtain ⟨stem, hstem⟩ := hstem
    rw [Path.suffix, hstem]
    exact suffix_append_output stem

/-- When something was written to its output, a request comes to the job that it came to before. -/
theorem Request.Yields.again (hyields : request.Yields world.tree world.host job)
    (hdefault : request.output = none) (h : world.LogsApart job.paths)
    (hwrote : world.Wrote job.location content final) :
    request.Yields final.tree final.host job ∧ final.LogsApart job.paths := by
  obtain ⟨⟨hdiscover, directory, hdirectory, hsettings⟩, houtput, hreads, hcompiled, hopen,
    htakes⟩ := hyields
  rw [← hwrote.host_eq] at htakes
  have hover := hwrote.overwritten h.exist
  have hstill : final.tree.openNew job.output = .ok job.location := hover.openNew_eq_ok hopen
  obtain ⟨entry, hlook⟩ := Tree.lookAt_of_discover hdiscover
  unfold Request.WritesTo at houtput
  rw [hdefault] at houtput
  refine ⟨⟨⟨?sources, directory, ?directory, hsettings⟩, ?output, ?reads, hcompiled, hstill,
    htakes⟩, h.of_wrote hwrote hdiscover⟩
  case sources =>
    refine hover.discover_eq_ok hdiscover fun location name hlocate hinside hadded => ?_
    have hname : location ++ [name] = job.location := by
      split at hadded
      · exact absurd hadded (by simp)
      · exact List.mem_singleton.mp hadded
    refine added_is_no_source houtput hlocate hinside hstill ?_ hname
    exact hname ▸ hover.isSome_iff.mpr (.inr hadded)
  case directory => exact (hover.isDirectory_eq hlook).trans hdirectory
  case output =>
    unfold Request.WritesTo
    rw [hdefault]
    exact (hover.outputPath_eq hlook).trans houtput
  case reads =>
    refine hreads.congr fun path hpath => ?_
    obtain ⟨hsuffix, location, -, hlocate, -⟩ := Tree.source_of_discover hdiscover hpath
    refine hover.readSource_eq_of_locate hlocate ?_
    rintro (hlogs | rfl)
    · exact h.apart path hpath location hlocate hlogs
    · exact Tree.location_ne_of_openNew hsuffix hlocate (Tree.name_of_outputPath houtput) hopen rfl

/-- A request for the output that belongs to its input can be made again: it finds the same sources
in the same order, writes to the same output, and leaves every file but the log files as it is.
Such an output is never a source, neither as a path nor as a file that is read. -/
theorem build_again_changes_nothing (world : World) (request : Request) (output : Path)
    (hdefault : request.output = none)
    (hapart : ∀ paths, world.tree.discover request.input = .ok paths → world.LogsApart paths)
    (hok : (world.build request).2 = .ok output) :
    let first := (world.build request).1
    let second := (first.build request).1
    (first.tree.discover request.input = world.tree.discover request.input ∧
      (first.build request).2 = .ok output ∧
      ∀ location, ¬ world.registry.LogsTo location →
        second.tree.entryAt location = first.tree.entryAt location) ∧
    ∀ (tree : Tree) (input : Path) (paths : List Path) (output : Path),
      tree.discover input = .ok paths → tree.outputPath input = .ok output →
        output ∉ paths ∧ ∀ path ∈ paths, ∀ location opened, tree.locate path = .ok location →
          tree.openNew output = .ok opened → location ≠ opened := by
  intro first second
  constructor
  · obtain ⟨job, hyields, rfl⟩ := exists_yields hok hapart
    have h := hapart job.paths hyields.finds.sources
    obtain ⟨-, hfirst⟩ := hyields.build h
    obtain ⟨hyields', h'⟩ := hyields.again hdefault h hfirst
    obtain ⟨hresult, hsecond⟩ := hyields'.build h'
    refine ⟨hyields'.finds.sources.trans hyields.finds.sources.symm, hresult,
      fun location hlogs => ?_⟩
    have hlogs' : ¬ first.registry.LogsTo location :=
      fun hfound => hlogs (hfirst.logsTo_iff.mp hfound)
    -- The second time, the output is written over with what it holds.
    by_cases houtput : location = job.location
    · subst houtput
      exact (hsecond.entryAt_eq hlogs').trans (hfirst.entryAt_eq hlogs).symm
    · apply (hsecond.overwritten h'.exist).entryAt_eq
      rintro (hfound | hfound)
      · exact hlogs' hfound
      · exact houtput hfound
  · intro tree input paths output hdiscover houtput
    refine ⟨Tree.not_mem_of_outputPath hdiscover houtput, ?_⟩
    intro path hpath location opened hlocate hopen
    have hsuffix := (Tree.source_of_discover hdiscover hpath).1
    exact Tree.location_ne_of_openNew hsuffix hlocate (Tree.name_of_outputPath houtput) hopen

/-- A directory that is itself named as a source, on a path with detours, while a log file
grows. -/
theorem build_again_changes_nothing_sample :
    let tree : Tree :=
      ⟨[(["lib.vm"], .directory), (["lib.vm", "A.vm"], .file (Text.encode "push constant 7\n"))],
        []⟩
    let world := (initial tree).setUpAll
      [⟨compilationLogger, debugLevel, warningLevel, some (.ofString "run.log"), false⟩]
    let request : Request := ⟨.ofString "lib.vm/../lib.vm/.", none, none, true, 256⟩
    let first := (world.build request).1
    let source : Path := .ofString "lib.vm/../lib.vm/A.vm"
    let output : Path := .ofString "lib.vm/../lib.vm/lib.vm.asm"
    (world.build request).2 = .ok output ∧ (first.build request).2 = .ok output ∧
      first.tree.discover request.input = .ok [source] ∧ output ∉ [source] ∧
      (first.build request).1.tree.entryAt ["lib.vm", "lib.vm.asm"] =
        first.tree.entryAt ["lib.vm", "lib.vm.asm"] := by
  intro tree world request first source output
  have hok : (world.build request).2 = .ok output := by decide +kernel
  have hdiscover : world.tree.discover request.input = .ok [source] := by decide +kernel
  have hlocate : world.tree.locate source = .ok ["lib.vm", "A.vm"] := by decide +kernel
  have houtput : world.tree.outputPath request.input = .ok output := by decide +kernel
  have hapart : ∀ paths, world.tree.discover request.input = .ok paths →
      world.LogsApart paths := by
    intro paths hpaths
    obtain rfl := Except.ok.inj (hdiscover.symm.trans hpaths)
    exact .of_locate (logsExist_initial tree _) hlocate (by decide +kernel)
  obtain ⟨⟨hsources, hagain, hkept⟩, hnever⟩ :=
    build_again_changes_nothing world request output rfl hapart hok
  exact ⟨hok, hagain, hsources.trans hdiscover, (hnever _ _ _ _ hdiscover houtput).1,
    hkept _ (by decide +kernel)⟩

/-- Log files are not left as they are, because the second build is logged too.  And a source that
is a log file may hold its first records only after the first build, so that the second fails. -/
theorem build_again_changes_log_files :
    let path : Path := .ofString "Main.vm"
    let request : Request := ⟨path, none, none, false, 256⟩
    let built := fun calls =>
      ((initial ⟨[(["Main.vm"], .file (Text.encode "add\n"))], []⟩).setUpAll calls).build request
    let beside := built
      [⟨emissionLogger, debugLevel, warningLevel, some (.ofString "t.log"), false⟩]
    let inside := built [⟨rootLogger, warningLevel, warningLevel, some path, false⟩,
      ⟨emissionLogger, debugLevel, warningLevel, none, false⟩]
    (beside.2 = .ok (.ofString "Main.asm") ∧
      (beside.1.build request).2 = .ok (.ofString "Main.asm") ∧
      (beside.1.build request).1.tree.read (.ofString "t.log") ≠
        beside.1.tree.read (.ofString "t.log")) ∧
    inside.2 = .ok (.ofString "Main.asm") ∧ (inside.1.build request).2.isOk = false := by
  decide +kernel

end HackVm.World
