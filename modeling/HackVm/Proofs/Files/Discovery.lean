import HackVm.Files.Sources

/-!
# The sources of an input

What a compilation takes as its sources, said without the search for them.  `Offers` gives the
source files of an input: a file offers itself, and a directory offers the files in it that are
named as sources, in the order of their names (`offers_of_discover`).

An input that has sources is a file or a directory, and so has an output that belongs to it
(`exists_outputPath`): when sources were found, nothing that is asked about the input afterwards can
fail.
-/

namespace HackVm.Files

@[simp] theorem Path.name_child (path : Path) (name : String) : (path.child name).name = name := by
  simp [Path.name, Path.child]

namespace Tree

open HackVm.Text (Bytes)

/-- The source files of an input, in the order in which they are compiled. -/
inductive Offers (tree : Tree) (input : Path) : List Path → Prop
  | file {content : Bytes} (hfile : tree.lookAt input = .ok (some (.file content)))
      (hsuffix : input.suffix = sourceSuffix) : Offers tree input [input]
  | directory {location : Location} {names : List String}
      (hlocate : tree.locate input = .ok location)
      (hdirectory : tree.isDirectoryAt location = true)
      (hnames : ∀ name, name ∈ names ↔ (tree.entryAt (location ++ [name])).isSome = true ∧
        tree.isFile (input.child name) = .ok true ∧ (input.child name).suffix = sourceSuffix)
      (hsorted : names.Pairwise (· ≤ ·)) (hne : names ≠ []) :
      Offers tree input (names.map input.child)

/-! ## Names in a directory -/

theorem mem_namesAt_iff {tree : Tree} {location : Location} {name : String} :
    name ∈ tree.namesAt location ↔ (tree.entryAt (location ++ [name])).isSome = true := by
  have hne : (location ++ [name]).isEmpty = false := by simp
  rw [entryAt, hne, if_neg (by simp), List.lookup_isSome_iff, namesAt, List.mem_mergeSort,
    List.mem_filterMap]
  constructor
  · rintro ⟨old, hold, hname⟩
    split at hname
    · next hinside =>
      simp only [Bool.and_eq_true, bne_iff_ne, beq_iff_eq] at hinside
      refine ⟨old, hold, beq_iff_eq.mpr ?_⟩
      obtain ⟨front, hfront⟩ := List.getLast?_eq_some_iff.mp hname
      rw [← hinside.2, hfront, List.dropLast_concat]
    · exact absurd hname (by simp)
  · rintro ⟨old, hold, hkey⟩
    refine ⟨old, hold, ?_⟩
    rw [← beq_iff_eq.mp hkey]
    simp

theorem pairwise_namesAt (tree : Tree) (location : Location) :
    (tree.namesAt location).Pairwise (· ≤ ·) := by
  have htrans : ∀ a b c : String, (!decide (b < a)) = true → (!decide (c < b)) = true →
      (!decide (c < a)) = true := by
    intro a b c hab hbc
    simp only [Bool.not_eq_true', decide_eq_false_iff_not, String.not_lt] at hab hbc ⊢
    exact String.le_trans hab hbc
  have htotal : ∀ a b : String, (!decide (b < a) || !decide (a < b)) = true := by
    intro a b
    simp only [Bool.or_eq_true, Bool.not_eq_true', decide_eq_false_iff_not, String.not_lt]
    exact String.le_total a b
  refine (List.pairwise_mergeSort htrans htotal _).imp ?_
  intro a b hab
  simpa only [Bool.not_eq_true', decide_eq_false_iff_not, String.not_lt] using hab

/-- The name leads to a source file in a directory. -/
def isSourceIn (tree : Tree) (path : Path) (name : String) : Bool :=
  match tree.isFile (path.child name) with
  | .ok isFile => isFile && (path.child name).suffix == sourceSuffix
  | .error _ => false

theorem isSourceIn_iff {tree : Tree} {path : Path} {name : String} :
    tree.isSourceIn path name = true ↔
      tree.isFile (path.child name) = .ok true ∧ (path.child name).suffix = sourceSuffix := by
  unfold isSourceIn
  cases tree.isFile (path.child name) <;> simp

/-- Of the names in a directory those are chosen that lead to source files, if each of them can be
asked what it is. -/
theorem sourcesAmong_eq_ok_iff {tree : Tree} {path : Path} {names : List String}
    {paths : List Path} :
    tree.sourcesAmong path names = .ok paths ↔
      (∀ name ∈ names, (tree.isFile (path.child name)).isOk = true) ∧
        (names.filter (tree.isSourceIn path)).map path.child = paths := by
  induction names generalizing paths with
  | nil => simp [sourcesAmong]
  | cons first rest ih =>
      rw [sourcesAmong, List.forall_mem_cons]
      cases hisFile : tree.isFile (path.child first) with
      | error error => simp [Except.isOk, Except.toBool]
      | ok isFile =>
          have hfirst : tree.isSourceIn path first =
              (isFile && (path.child first).suffix == sourceSuffix) := by
            rw [isSourceIn, hisFile]
          have hasked : (Except.ok isFile : Except FileError Bool).isOk = true := rfl
          cases hrest : tree.sourcesAmong path rest with
          | error error =>
              refine iff_of_false (by simp) fun h => ?_
              exact absurd (hrest.symm.trans (ih.mpr ⟨h.1.2, rfl⟩)) (by simp)
          | ok others =>
              obtain ⟨hnames, rfl⟩ := ih.mp hrest
              rw [List.filter_cons, hfirst, and_iff_right ⟨hasked, hnames⟩, Except.ok.injEq]
              split <;> rfl

/-! ## Discovery -/

variable {tree : Tree} {input : Path} {paths : List Path}

theorem lookAt_eq_some {entry : Entry} (h : tree.lookAt input = .ok (some entry)) :
    ∃ location, tree.locate input = .ok location ∧ tree.entryAt location = some entry := by
  unfold lookAt at h
  split at h
  · next location hlocate => exact ⟨location, hlocate, Except.ok.inj h⟩
  · exact absurd h (by simp)
  · exact absurd h (by simp)

/-- An input with sources is there. -/
theorem lookAt_of_discover (h : tree.discover input = .ok paths) :
    ∃ entry, tree.lookAt input = .ok (some entry) := by
  unfold discover at h
  split at h
  · exact absurd h (by simp)
  · next hentry => exact ⟨_, hentry⟩
  · next hentry => exact ⟨_, hentry⟩
  · exact absurd h (by simp)

/-- The sources that are found are those of the input. -/
theorem offers_of_discover (h : tree.discover input = .ok paths) : Offers tree input paths := by
  unfold discover at h
  split at h
  · exact absurd h (by simp)
  · next hentry =>
    obtain ⟨location, hlocate, hdirectory⟩ := lookAt_eq_some hentry
    split at h
    · exact absurd h (by simp)
    · exact absurd h (by simp)
    · next found hnonempty hfound =>
      obtain rfl := Except.ok.inj h
      simp only [sourcesIn, hlocate] at hfound
      obtain ⟨-, rfl⟩ := sourcesAmong_eq_ok_iff.mp hfound
      refine .directory hlocate (beq_iff_eq.mpr hdirectory) (fun name => ?_)
        ((pairwise_namesAt tree location).sublist List.filter_sublist) ?_
      · rw [List.mem_filter, mem_namesAt_iff, isSourceIn_iff]
      · intro hnone
        exact hnonempty (by rw [hnone, List.map_nil])
  · next content hentry =>
    split at h
    · next hsuffix =>
      obtain rfl := Except.ok.inj h
      exact .file hentry (beq_iff_eq.mp hsuffix)
    · exact absurd h (by simp)
  · exact absurd h (by simp)

/-- What an input is can be asked again when its sources were found. -/
theorem exists_isDirectory (h : tree.discover input = .ok paths) :
    ∃ directory, tree.isDirectory input = .ok directory := by
  obtain ⟨entry, hentry⟩ := lookAt_of_discover h
  exact ⟨_, by rw [isDirectory, hentry]; rfl⟩

/-- An input with sources has an output. -/
theorem exists_outputPath (h : tree.discover input = .ok paths) :
    ∃ output, tree.outputPath input = .ok output := by
  obtain ⟨entry, hentry⟩ := lookAt_of_discover h
  obtain ⟨location, hlocate, -⟩ := lookAt_eq_some hentry
  have hdirectory : tree.isDirectory input = .ok (some entry == some .directory) := by
    rw [isDirectory, hentry]
    rfl
  unfold outputPath
  rw [hdirectory, hlocate]
  cases some entry == some Entry.directory with
  | false => exact ⟨_, rfl⟩
  | true => exact ⟨_, rfl⟩

/-- An input that cannot be asked what it is has no sources for the same reason. -/
theorem discover_of_isDirectory_error {error : FileError}
    (h : tree.isDirectory input = .error error) : tree.discover input = .error (.file error) := by
  unfold isDirectory at h
  cases hlook : tree.lookAt input with
  | error other =>
      rw [hlook] at h
      obtain rfl := Except.error.inj h
      rw [discover, hlook]
  | ok entry => simp [hlook, Except.map] at h

end Tree

end HackVm.Files
