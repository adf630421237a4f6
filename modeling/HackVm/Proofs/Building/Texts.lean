import HackVm.Proofs.Building.LogsApart
import HackVm.Proofs.Text.Decoding

/-!
# A file is built as its text is compiled

There are two ways from a text to the lines of a source.  A text at hand is cut at every line break.
A text in a file is written in UTF-8, read back, its newlines are folded, and only then it is cut:

```text
text  ──────────────────────────────────────────────── lines ──▶  source
text  ── encode ──▶ file ── decode ── foldNewlines ──── lines ──▶  source
```

Both give the same source (`readSource_of_read`).  So to build a source file is to compile its text,
with the same code or the same fault (`file_builds_as_its_text`).  What a file has and a text has
not is an output, which may not open or may not take the code, and log files that may get in its
way.
-/

namespace HackVm

open Files Log World

namespace Files.Tree

variable {tree : Tree} {path : Path} {content : Text.Bytes}

theorem lookAt_of_read (hread : tree.read path = .ok content) :
    tree.lookAt path = .ok (some (.file content)) := by
  unfold read at hread
  split at hread
  · exact absurd hread (by simp)
  · next location hlocate =>
    split at hread
    · next found hentry =>
      obtain rfl := Except.ok.inj hread
      rw [lookAt, hlocate]
      exact congrArg Except.ok hentry
    · exact absurd hread (by simp)
    · exact absurd hread (by simp)

/-- A text in a file is the source that it is elsewhere. -/
theorem readSource_of_read {text : String} (hread : tree.read path = .ok (Text.encode text)) :
    tree.readSource path = .ok (.ofText path.stem text) := by
  rw [readSource, readText, hread]
  dsimp only
  rw [Text.decode_encode]
  dsimp only [Except.map]
  rw [Source.ofText, Source.ofText, Text.lines_foldNewlines]

end Files.Tree

namespace World

variable {world : World} {request : Request}

theorem Request.finds_of_read {tree : Tree} {content : Text.Bytes}
    (hread : tree.read request.input = .ok content)
    (hsuffix : request.input.suffix = sourceSuffix) :
    request.Finds tree [request.input] (request.settingsFor false) where
  sources := by
    rw [Tree.discover, Tree.lookAt_of_read hread]
    exact if_pos (beq_iff_eq.mpr hsuffix)
  settings := by
    refine ⟨false, ?_, rfl⟩
    rw [Tree.isDirectory, Tree.lookAt_of_read hread]
    rfl

/-- A job that is done can be read back, unless its output is a log file. -/
theorem Request.Yields.read_output {job : Job}
    (hyields : request.Yields world.tree world.host job) (h : world.LogsApart job.paths)
    (hlogs : ¬ world.registry.LogsTo job.location) :
    (world.build request).1.tree.read job.output = .ok (Text.encode job.text) := by
  obtain ⟨-, hwrote⟩ := hyields.build h
  have hopen := (hwrote.overwritten h.exist).openNew_eq_ok hyields.opens
  have hentry := hwrote.entryAt_eq hlogs
  exact Tree.read_of_entryAt
    (Tree.locate_of_openNew hopen (Option.isSome_of_eq_some hentry)) hentry

/-- A file that holds a text in UTF-8 is built as the text is compiled under the file's name: a
fault of the text is that of the build, and otherwise its code is written, where the output opens
and takes it.  For the lines of a text are the same with and without folded newlines. -/
theorem file_builds_as_its_text (world : World) (request : Request) (text : String)
    (hread : world.tree.read request.input = .ok (Text.encode text))
    (hsuffix : request.input.suffix = sourceSuffix)
    (hapart : world.LogsApart [request.input]) :
    let compiled := compileText (request.settingsFor false) [.ofText request.input.stem text]
    (∀ failure, compiled = .error failure → (world.build request).2 = .error failure) ∧
    (∀ code, compiled = .ok code → ∃ output, request.WritesTo world.tree output ∧
      (∀ error, world.tree.openNew output = .error error →
        (world.build request).2 = .error (.file error)) ∧
      ∀ location, world.tree.openNew output = .ok location →
        (∀ shortfall, world.host.shortfall? location (Text.encode code) = some shortfall →
          (world.build request).2 = .error (.file (.unwritten shortfall.fault))) ∧
        (world.host.shortfall? location (Text.encode code) = none →
          (world.build request).2 = .ok output ∧
          (¬ world.registry.LogsTo location →
            (world.build request).1.tree.read output = .ok (Text.encode code)))) ∧
    ∀ text : String,
      Text.lines (String.ofList (Text.foldNewlines text.toList)) = Text.lines text := by
  intro compiled
  have hfinds := Request.finds_of_read hread hsuffix
  have hreads : Reads world.tree [request.input] [.ofText request.input.stem text] :=
    .cons (Tree.readSource_of_read hread) .nil
  refine ⟨fun failure hfault => ?_, fun code hcode => ?_, Text.lines_foldNewlines⟩
  · exact hapart.build_of_fault hfinds hreads hfault
  · obtain ⟨output, houtput⟩ := (Request.finds_of_discover hfinds.sources).2
    refine ⟨output, houtput, fun error hopen => ?_, fun location hopen => ⟨?_, fun htakes => ?_⟩⟩
    · exact hapart.build_of_unopened hfinds hreads hcode houtput hopen
    · exact fun shortfall => hapart.build_of_short hfinds hreads hcode houtput hopen
    · have hyields : request.Yields world.tree world.host
          ⟨[request.input], _, _, code, output, location⟩ :=
        ⟨hfinds, houtput, hreads, hcode, hopen, htakes⟩
      exact ⟨(hyields.build hapart).1, hyields.read_output hapart⟩

private def textSample (text : String) (calls : List SetUpCall) : World :=
  (initial ⟨[(["Main.vm"], .file (Text.encode text))], []⟩).setUpAll calls

private def requestSample : Request :=
  ⟨.ofString "Main.vm", none, none, false, 256⟩

/-- Breaks of one and of two characters, in a text with code and in one with a fault, while a log
file grows. -/
theorem file_builds_as_its_text_sample :
    let calls : List SetUpCall :=
      [⟨compilationLogger, debugLevel, warningLevel, some (.ofString "run.log"), false⟩]
    let good := textSample "neg\r\r\nnot\r" calls
    let bad := textSample "neg\r\r\njump 1" calls
    let output : Path := .ofString "Main.asm"
    (good.build requestSample).2 = .ok output ∧
      (good.build requestSample).1.tree.read output =
        .ok (Text.encode "@SP\nA=M-1\nM=-M\n@SP\nA=M-1\nM=!M\n") ∧
      (bad.build requestSample).2 =
        .error (.malformed ⟨.unknownWord "jump", "Main", 3, "jump 1"⟩) := by
  intro calls good bad output
  have hgoodAt : good.tree.locate requestSample.input = .ok ["Main.vm"] := by decide +kernel
  have hbadAt : bad.tree.locate requestSample.input = .ok ["Main.vm"] := by decide +kernel
  have hgoodLogs : good.LogsApart [requestSample.input] :=
    .of_locate (logsExist_initial _ _) hgoodAt (by decide +kernel)
  have hbadLogs : bad.LogsApart [requestSample.input] :=
    .of_locate (logsExist_initial _ _) hbadAt (by decide +kernel)
  have hcode : compileText (requestSample.settingsFor false)
      [.ofText requestSample.input.stem "neg\r\r\nnot\r"] =
        .ok "@SP\nA=M-1\nM=-M\n@SP\nA=M-1\nM=!M\n" := by decide +kernel
  have hfault : compileText (requestSample.settingsFor false)
      [.ofText requestSample.input.stem "neg\r\r\njump 1"] =
        .error (.malformed ⟨.unknownWord "jump", "Main", 3, "jump 1"⟩) := by decide +kernel
  obtain ⟨-, hgood, -⟩ := file_builds_as_its_text good requestSample "neg\r\r\nnot\r"
    (by decide +kernel) (by decide) hgoodLogs
  obtain ⟨hbad, -, -⟩ := file_builds_as_its_text bad requestSample "neg\r\r\njump 1"
    (by decide +kernel) (by decide) hbadLogs
  obtain ⟨written, hwritten, -, hopened⟩ := hgood _ hcode
  have houtput : good.tree.outputPath requestSample.input = .ok output := by decide +kernel
  obtain rfl : output = written := Except.ok.inj (houtput.symm.trans hwritten)
  obtain ⟨-, hfull⟩ := hopened ["Main.asm"] (by decide +kernel)
  obtain ⟨hok, hread⟩ := hfull rfl
  exact ⟨hok, hread (by decide +kernel), hbad _ hfault⟩

/-- Where the output is a directory, a file is not built though its text is compiled.  Nor is it if
the first record of the build goes into the file.  And an output that is a log file holds the last
record in addition. -/
theorem file_is_not_built_as_its_text :
    let compiled := fun text =>
      compileText (requestSample.settingsFor false) [.ofText requestSample.input.stem text]
    let output : Path := .ofString "Main.asm"
    let blocked := initial
      ⟨[(["Main.vm"], .file (Text.encode "neg\n")), (["Main.asm"], .directory)], []⟩
    let inside := textSample ""
      [⟨rootLogger, warningLevel, warningLevel, some requestSample.input, false⟩,
        ⟨compilationLogger, infoLevel, warningLevel, none, false⟩]
    let mixed := textSample ""
      [⟨compilationLogger, infoLevel, warningLevel, some output, false⟩]
    (compiled "neg\n" = .ok "@SP\nA=M-1\nM=-M\n" ∧
      blocked.tree.read requestSample.input = .ok (Text.encode "neg\n") ∧
      (blocked.build requestSample).2 = .error (.file (.system .isDirectory output))) ∧
    compiled "" = .ok "" ∧
    (inside.tree.read requestSample.input = .ok (Text.encode "") ∧
      (inside.build requestSample).2.isOk = false) ∧
    mixed.tree.read requestSample.input = .ok (Text.encode "") ∧
      (mixed.build requestSample).2 = .ok output ∧
      (mixed.build requestSample).1.tree.read output ≠ .ok (Text.encode "") := by
  decide +kernel

end World

end HackVm
