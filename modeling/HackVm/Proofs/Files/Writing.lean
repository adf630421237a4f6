import HackVm.Files.Tree

/-!
# What operations on files change

`KeepsFiles` compares the files of two trees and leaves directories out of account: to make
directories changes no file (`keepsFiles_makeDirectories`).

A path is followed part by part, through directories only (`walk_cons_eq_ok_iff`).  The path of a
file that is opened leads to it once the file is there (`locate_of_openNew`).
-/

namespace HackVm.Files.Tree

open HackVm.Text (Bytes)

/-- Both trees have the same files with the same contents, but for some locations. -/
def KeepsFiles (before after : Tree) (changed : Location → Prop) : Prop :=
  ∀ location, ¬ changed location → after.content? location = before.content? location

namespace KeepsFiles

theorem refl (tree : Tree) (changed : Location → Prop) : KeepsFiles tree tree changed :=
  fun _ _ => rfl

theorem trans {first second third : Tree} {changed : Location → Prop}
    (h₁ : KeepsFiles first second changed) (h₂ : KeepsFiles second third changed) :
    KeepsFiles first third changed :=
  fun location hlocation => (h₂ location hlocation).trans (h₁ location hlocation)

theorem mono {before after : Tree} {changed wider : Location → Prop}
    (h : KeepsFiles before after changed) (hwider : ∀ location, changed location → wider location) :
    KeepsFiles before after wider :=
  fun location hlocation => h location fun hchanged => hlocation (hwider location hchanged)

end KeepsFiles

/-! ## Putting a file -/

theorem content?_put_of_ne (tree : Tree) {location other : Location} (hother : other ≠ location)
    (entry : Entry) : (tree.put location entry).content? other = tree.content? other := by
  rw [content?, content?, entryAt_put_of_ne tree hother]

/-- No file is at the top. -/
theorem ne_nil_of_content? {tree : Tree} {location : Location} {content : Bytes}
    (h : tree.content? location = some content) : location ≠ [] := by
  rintro rfl
  exact absurd h (by simp [content?])

theorem content?_put_file (tree : Tree) {location : Location} (hlocation : location ≠ [])
    (content : Bytes) : (tree.put location (.file content)).content? location = some content := by
  rw [content?, entryAt_put_self tree hlocation]

theorem keepsFiles_put (tree : Tree) (location : Location) (entry : Entry) :
    KeepsFiles tree (tree.put location entry) (· = location) :=
  fun _ hother => content?_put_of_ne tree hother entry

/-- A location without an entry has no file, before and after a directory is put there. -/
private theorem keepsFiles_put_directory (tree : Tree) {location : Location}
    (hnone : tree.entryAt location = none) (changed : Location → Prop) :
    KeepsFiles tree (tree.put location .directory) changed := by
  intro other _
  by_cases hother : other = location
  · subst hother
    have hne : other ≠ [] := by
      rintro rfl
      exact absurd hnone (by simp)
    rw [content?, content?, entryAt_put_self tree hne, hnone]
  · exact content?_put_of_ne tree hother .directory

private theorem keepsFiles_makeDirectory {tree made : Tree} {path : Path}
    (h : tree.makeDirectory path = .ok made) (changed : Location → Prop) :
    KeepsFiles tree made changed := by
  unfold makeDirectory at h
  split at h
  · exact absurd h (by simp)
  · next location _ =>
    split at h
    · exact absurd h (by simp)
    · next hfree =>
      obtain rfl := Except.ok.inj h
      exact keepsFiles_put_directory tree (by simpa using hfree) changed

private theorem keepsFiles_makeDirectoriesFrom (tree : Tree) (anchor : String)
    (parts : List String) (changed : Location → Prop) :
    KeepsFiles tree (tree.makeDirectoriesFrom anchor parts).1 changed := by
  induction parts generalizing tree with
  | nil =>
      unfold makeDirectoriesFrom
      dsimp only
      split
      · next made hmade => exact keepsFiles_makeDirectory hmade changed
      · exact .refl tree changed
  | cons name above ih =>
      unfold makeDirectoriesFrom
      dsimp only
      split
      · next made hmade => exact keepsFiles_makeDirectory hmade changed
      · -- The directories above are made first, and then this one once more.
        have habove := ih tree
        split
        · next hrest =>
          rw [hrest] at habove
          exact habove
        · next hrest =>
          rw [hrest] at habove
          split
          · next made hmade => exact habove.trans (keepsFiles_makeDirectory hmade changed)
          · exact habove
      · exact .refl tree changed

/-- Making directories changes no file, whether it succeeds or not. -/
theorem keepsFiles_makeDirectories (tree : Tree) (path : Path) (changed : Location → Prop) :
    KeepsFiles tree (tree.makeDirectories path).1 changed :=
  keepsFiles_makeDirectoriesFrom tree path.anchor path.parts.reverse changed

theorem content?_makeDirectories (tree : Tree) (path : Path) (location : Location) :
    (tree.makeDirectories path).1.content? location = tree.content? location :=
  tree.keepsFiles_makeDirectories path (fun _ => False) location id

/-! ## Following paths -/

/-- One part of a path that leads somewhere: up to the directory above, or into an entry. -/
theorem walk_cons_eq_ok_iff {tree : Tree} {location destination : Location} {part : String}
    {rest : List String} :
    tree.walk location (part :: rest) = .ok destination ↔
      tree.isDirectoryAt location = true ∧
        ((part = ".." ∧ tree.walk location.dropLast rest = .ok destination) ∨
          (part ≠ ".." ∧ part.utf8ByteSize ≤ maxNameBytes ∧
            (tree.entryAt (location ++ [part])).isSome = true ∧
            tree.walk (location ++ [part]) rest = .ok destination)) := by
  rw [walk]
  cases tree.isDirectoryAt location with
  | false => simp
  | true =>
      by_cases hup : part = ".."
      · simp [hup]
      · by_cases hlong : maxNameBytes < part.utf8ByteSize
        · simp [hup, hlong, Nat.not_le.mpr hlong]
        · by_cases hsome : (tree.entryAt (location ++ [part])).isSome = true <;>
            simp [hup, hlong, Nat.not_lt.mp hlong, hsome]

/-- A path in two pieces is followed piece by piece. -/
theorem walk_append {tree : Tree} {start middle : Location} {front : List String}
    (hfront : tree.walk start front = .ok middle) (rest : List String) :
    tree.walk start (front ++ rest) = tree.walk middle rest := by
  induction front generalizing start with
  | nil =>
      obtain rfl := Except.ok.inj hfront
      rfl
  | cons part front ih =>
      obtain ⟨hdirectory, ⟨hup, hwalk⟩ | ⟨hdown, hshort, hsome, hwalk⟩⟩ :=
        walk_cons_eq_ok_iff.mp hfront
      · rw [List.cons_append, walk, hdirectory, hup]
        exact ih hwalk
      · rw [List.cons_append, walk, hdirectory]
        simp only [Bool.not_true, Bool.false_eq_true, if_false, beq_iff_eq, hdown,
          Nat.not_lt.mpr hshort, hsome, if_true]
        exact ih hwalk

/-! ## Opening files -/

theorem ne_nil_of_not_isDirectoryAt {tree : Tree} {location : Location}
    (hfile : tree.isDirectoryAt location = false) : location ≠ [] := by
  rintro rfl
  exact absurd hfile (by simp [isDirectoryAt])

theorem openNew_eq_ok {tree : Tree} {path : Path} {location : Location}
    (h : tree.openNew path = .ok location) :
    tree.locateNew path = .ok location ∧ tree.isDirectoryAt location = false := by
  unfold openNew at h
  split at h
  · exact absurd h (by simp)
  · split at h
    · exact absurd h (by simp)
    · next hfound hdirectory =>
      obtain rfl := Except.ok.inj h
      exact ⟨hfound, by simpa using hdirectory⟩

theorem locate_eq_ok {tree : Tree} {path : Path} {location : Location}
    (h : tree.locate path = .ok location) :
    checkPath path = .ok () ∧ tree.walk (tree.start path) path.parts = .ok location := by
  unfold locate at h
  split at h
  · exact absurd h (by simp)
  · next hcheck =>
    refine ⟨hcheck, ?_⟩
    cases hwalk : tree.walk (tree.start path) path.parts with
    | error cause =>
        rw [hwalk] at h
        cases h
    | ok found =>
        rw [hwalk] at h
        exact congrArg Except.ok (Except.ok.inj h)

theorem locate_of_walk {tree : Tree} {path : Path} {location : Location}
    (hcheck : checkPath path = .ok ())
    (hwalk : tree.walk (tree.start path) path.parts = .ok location) :
    tree.locate path = .ok location := by
  rw [locate, hcheck, hwalk]
  rfl

/-- A path for a new entry leads to it from the directory that its other parts lead to, unless it
leads to a directory as it is. -/
theorem locateNew_eq_ok {tree : Tree} {path : Path} {location : Location}
    (h : tree.locateNew path = .ok location) :
    tree.locate path = .ok location ∨
      ∃ directory, checkPath path = .ok () ∧ path.parts = path.parts.dropLast ++ [path.name] ∧
        tree.walk (tree.start path) path.parts.dropLast = .ok directory ∧
        tree.isDirectoryAt directory = true ∧ path.name ≠ ".." ∧
        path.name.utf8ByteSize ≤ maxNameBytes ∧ location = directory ++ [path.name] := by
  unfold locateNew at h
  split at h
  · exact absurd h (by simp)
  · next hcheck =>
    split at h
    · exact .inl h
    · next hname =>
      simp only [Bool.or_eq_true, List.isEmpty_iff, beq_iff_eq, not_or] at hname
      split at h
      · exact absurd h (by simp)
      · next directory hwalk =>
        split at h
        · exact absurd h (by simp)
        · next hdirectory =>
          split at h
          · exact absurd h (by simp)
          · next hlong =>
            have hparts : path.parts = path.parts.dropLast ++ [path.name] := by
              rw [Path.name, List.getLast?_eq_some_getLast hname.1, Option.getD_some,
                List.dropLast_concat_getLast]
            exact .inr ⟨directory, hcheck, hparts, hwalk, by simpa using hdirectory, hname.2,
              Nat.not_lt.mp hlong, (Except.ok.inj h).symm⟩

/-- The path of a file that is opened leads to it, if it is there. -/
theorem locate_of_openNew {tree : Tree} {path : Path} {location : Location}
    (h : tree.openNew path = .ok location) (hsome : (tree.entryAt location).isSome = true) :
    tree.locate path = .ok location := by
  rcases locateNew_eq_ok (openNew_eq_ok h).1 with hlocate |
    ⟨directory, hcheck, hparts, hwalk, hdirectory, hdown, hshort, rfl⟩
  · exact hlocate
  · apply locate_of_walk hcheck
    rw [hparts, walk_append hwalk]
    exact walk_cons_eq_ok_iff.mpr ⟨hdirectory, .inr ⟨hdown, hshort, hsome, rfl⟩⟩

end HackVm.Files.Tree
