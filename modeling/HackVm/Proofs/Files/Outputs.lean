import HackVm.Proofs.Files.Discovery
import HackVm.Proofs.Files.Writing

/-!
# Outputs are never sources

The output that belongs to an input is named with the suffix of outputs (`name_of_outputPath`).  So
it is not named as a source, whatever the input is called, and is none of the sources that the input
has (`not_mem_of_outputPath`).

Two paths can lead to one file.  But a path that ends in a name leads to an entry of that name, so
the file that is opened for an output is none of the files that are read as sources either
(`location_ne_of_openNew`).
-/

namespace HackVm.Files

/-- A name that ends in the suffix of outputs does not have the suffix of sources. -/
theorem suffix_append_output (stem : String) :
    (splitSuffix (stem ++ outputSuffix)).2 ≠ sourceSuffix := by
  have hchars : (stem ++ outputSuffix).toList = stem.toList ++ ['.', 'a', 's', 'm'] := by
    rw [String.toList_append]
    rfl
  have htail : (stem.toList ++ ['.', 'a', 's', 'm']).reverse.takeWhile (· != '.') =
      ['m', 's', 'a'] := by
    simp
  unfold splitSuffix
  dsimp only
  rw [hchars, htail]
  split
  · exact (by decide : "" ≠ sourceSuffix)
  · exact (by decide : String.ofList ['.', 'a', 's', 'm'] ≠ sourceSuffix)

namespace Tree

variable {tree other : Tree} {input output path : Path} {paths : List Path} {location : Location}

theorem name_of_outputPath (h : tree.outputPath input = .ok output) :
    ∃ stem, output.name = stem ++ outputSuffix := by
  unfold outputPath at h
  split at h
  · exact absurd h (by simp)
  · rw [← Except.ok.inj h]
    exact ⟨input.stem, Path.name_child _ _⟩
  · split at h
    · exact absurd h (by simp)
    · next inner _ =>
      rw [← Except.ok.inj h]
      exact ⟨inner.getLast?.getD "", Path.name_child _ _⟩

/-- The output of a directory is in it. -/
theorem outputPath_eq_child (hlocate : tree.locate input = .ok location)
    (hdirectory : tree.isDirectoryAt location = true) (h : tree.outputPath input = .ok output) :
    output = input.child output.name := by
  have hask : tree.isDirectory input = .ok true := by
    rw [isDirectory, lookAt, hlocate]
    exact congrArg Except.ok hdirectory
  rw [outputPath, hask, hlocate] at h
  rw [← Except.ok.inj h, Path.name_child]

/-- The sources of an input are there, and are named as sources. -/
theorem source_of_discover (h : tree.discover input = .ok paths) (hpath : path ∈ paths) :
    path.suffix = sourceSuffix ∧ ∃ location content, tree.locate path = .ok location ∧
      tree.entryAt location = some (.file content) := by
  have hfile : ∀ {path : Path}, tree.isFile path = .ok true → ∃ location content,
      tree.locate path = .ok location ∧ tree.entryAt location = some (.file content) := by
    intro path hisFile
    unfold isFile at hisFile
    cases hlook : tree.lookAt path with
    | error error => simp [hlook, Except.map] at hisFile
    | ok entry =>
        rw [hlook] at hisFile
        match entry, hisFile with
        | some (.file content), _ =>
            obtain ⟨location, hlocate, hentry⟩ := lookAt_eq_some hlook
            exact ⟨location, content, hlocate, hentry⟩
  cases offers_of_discover h with
  | file hlook hsuffix =>
      obtain rfl := List.mem_singleton.mp hpath
      obtain ⟨location, hlocate, hentry⟩ := lookAt_eq_some hlook
      exact ⟨hsuffix, location, _, hlocate, hentry⟩
  | directory _ _ hnames _ _ =>
      obtain ⟨name, hname, rfl⟩ := List.mem_map.mp hpath
      obtain ⟨-, hisFile, hsuffix⟩ := (hnames name).mp hname
      exact ⟨hsuffix, hfile hisFile⟩

/-- The output that belongs to an input is not one of its sources. -/
theorem not_mem_of_outputPath (h : tree.discover input = .ok paths)
    (houtput : tree.outputPath input = .ok output) : output ∉ paths := by
  intro hmem
  obtain ⟨stem, hname⟩ := name_of_outputPath houtput
  have hsuffix := (source_of_discover h hmem).1
  rw [Path.suffix, hname] at hsuffix
  exact suffix_append_output stem hsuffix

/-! ## Locations -/

/-- A path that ends in a name leads to an entry of that name. -/
private theorem getLast?_of_walk {start : Location} {parts : List String} {name : String}
    (hup : name ≠ "..") (hwalk : tree.walk start (parts ++ [name]) = .ok location) :
    location.getLast? = some name := by
  induction parts generalizing start with
  | nil =>
      obtain ⟨-, ⟨hname, -⟩ | ⟨-, -, -, hend⟩⟩ := walk_cons_eq_ok_iff.mp hwalk
      · exact absurd hname hup
      · rw [← Except.ok.inj hend]
        exact List.getLast?_concat
  | cons part rest ih =>
      obtain ⟨-, ⟨-, hrest⟩ | ⟨-, -, -, hrest⟩⟩ := walk_cons_eq_ok_iff.mp hwalk
      · exact ih hrest
      · exact ih hrest

private theorem getLast?_of_locate (hname : path.name ≠ "") (hup : path.name ≠ "..")
    (hlocate : tree.locate path = .ok location) : location.getLast? = some path.name := by
  obtain ⟨-, hwalk⟩ := locate_eq_ok hlocate
  have hparts : path.parts ≠ [] := by
    intro hnone
    exact hname (by rw [Path.name, hnone]; rfl)
  have hsplit : path.parts = path.parts.dropLast ++ [path.name] := by
    rw [Path.name, List.getLast?_eq_some_getLast hparts, Option.getD_some,
      List.dropLast_concat_getLast]
  rw [hsplit] at hwalk
  exact getLast?_of_walk hup hwalk

private theorem getLast?_of_openNew (hname : path.name ≠ "") (hup : path.name ≠ "..")
    (hopen : tree.openNew path = .ok location) : location.getLast? = some path.name := by
  rcases locateNew_eq_ok (openNew_eq_ok hopen).1 with hlocate |
    ⟨directory, -, -, -, -, -, -, rfl⟩
  · exact getLast?_of_locate hname hup hlocate
  · exact List.getLast?_concat

/-- The file that is opened for an output has its name. -/
theorem getLast?_of_output (houtput : ∃ stem, output.name = stem ++ outputSuffix)
    (hopen : tree.openNew output = .ok location) : location.getLast? = some output.name := by
  obtain ⟨stem, hname⟩ := houtput
  have hend : output.name.toList.getLast? = some 'm' := by
    rw [hname, String.toList_append]
    simp [outputSuffix]
  refine getLast?_of_openNew ?_ ?_ hopen <;> intro hnone <;> rw [hnone] at hend
  · exact absurd hend (by decide)
  · exact absurd hend (by decide)

/-- It is none that a source is read from, also if other files were written in between. -/
theorem location_ne_of_openNew {opened : Location} (hsuffix : path.suffix = sourceSuffix)
    (hlocate : tree.locate path = .ok location)
    (houtput : ∃ stem, output.name = stem ++ outputSuffix)
    (hopen : other.openNew output = .ok opened) : location ≠ opened := by
  rintro rfl
  have hsource : location.getLast? = some path.name := by
    refine getLast?_of_locate ?_ ?_ hlocate <;> intro hnone <;> rw [Path.suffix, hnone] at hsuffix
    · exact absurd hsuffix (by decide)
    · exact absurd hsuffix (by decide)
  have hlast := getLast?_of_output houtput hopen
  have hsame : path.name = output.name := Option.some.inj (hsource.symm.trans hlast)
  obtain ⟨stem, hname⟩ := houtput
  rw [Path.suffix, hsame, hname] at hsuffix
  exact suffix_append_output stem hsuffix

end Tree

end HackVm.Files
