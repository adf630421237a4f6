import HackVm.Proofs.Files.Discovery
import HackVm.Proofs.Files.Writing

/-!
# Trees in which files were written over

Log files grow while a program is compiled, and an output is written into the very directory that is
searched for sources.  `Overwritten before after changed added` says what such writing can do to a
tree: directories stay directories, no entry goes away, entries differ at the `changed` locations
only, and the `added` locations have come last.

```text
following a path      leads where it led, if it led anywhere
reading a source      gives what it gave, at a location that is not changed
opening an output     opens what it opened
finding sources       finds what it found, if nothing that was added is named as a source
```

If nothing was added then paths that led nowhere fail as they did, too (`locate_eq`, `openNew_eq`).

To write a file is to open it, which empties it, and then to fill it.  `WriteEnds` says once how
that can end: the file is not opened, or it takes a part of the content only, or it takes all of it
and is read back (`read_of_openNew`).
-/

namespace HackVm

/-- A known key keeps its place, and a new one comes last. -/
theorem Table.map_fst_put {κ α : Type} [BEq κ] [LawfulBEq κ] (table : Table κ α) (key : κ)
    (value : α) :
    (Table.put table key value).map Prod.fst =
      table.map Prod.fst ++ if (table.lookup key).isSome then [] else [key] := by
  induction table with
  | nil => rfl
  | cons entry rest ih =>
      obtain ⟨first, old⟩ := entry
      cases hfirst : key == first with
      | true =>
          rw [Table.put, if_pos hfirst, List.lookup_cons, hfirst, eq_of_beq hfirst]
          simp
      | false =>
          rw [Table.put, if_neg (by simp [hfirst]), List.lookup_cons, hfirst, List.map_cons, ih]
          rfl

namespace Files.Tree

open HackVm.Text (Bytes)

/-- Files were written over or added, and nothing else happened to the tree. -/
structure Overwritten (before after : Tree) (changed : Location → Prop)
    (added : List Location) : Prop where
  current_eq : after.current = before.current
  locations_eq : after.entries.map Prod.fst = before.entries.map Prod.fst ++ added
  isDirectoryAt_eq : ∀ location, after.isDirectoryAt location = before.isDirectoryAt location
  entryAt_eq : ∀ location, ¬ changed location → after.entryAt location = before.entryAt location

theorem isSome_entryAt_iff {tree : Tree} {location : Location} :
    (tree.entryAt location).isSome = true ↔
      location = [] ∨ location ∈ tree.entries.map Prod.fst := by
  unfold entryAt
  split
  · next hempty => simp [List.isEmpty_iff.mp hempty]
  · next hempty =>
    rw [or_iff_right (by simpa using hempty), List.lookup_isSome_iff, List.mem_map]
    refine exists_congr fun entry => and_congr_right fun _ => ?_
    rw [beq_iff_eq, eq_comm]

/-- What is there and is no directory is a file. -/
theorem exists_content {tree : Tree} {location : Location}
    (hsome : (tree.entryAt location).isSome = true)
    (hdirectory : tree.isDirectoryAt location = false) :
    ∃ content, tree.entryAt location = some (.file content) := by
  unfold isDirectoryAt at hdirectory
  cases hentry : tree.entryAt location with
  | none => simp [hentry] at hsome
  | some entry =>
      cases entry with
      | directory => simp [hentry] at hdirectory
      | file content => exact ⟨content, rfl⟩

theorem isSome_content?_iff {tree : Tree} {location : Location} :
    (tree.content? location).isSome = true ↔
      (tree.entryAt location).isSome = true ∧ tree.isDirectoryAt location = false := by
  unfold content? isDirectoryAt
  cases tree.entryAt location with
  | none => simp
  | some entry => cases entry <;> simp

theorem entryAt_of_content? {tree : Tree} {location : Location} {content : Bytes}
    (h : tree.content? location = some content) :
    tree.entryAt location = some (.file content) := by
  unfold content? at h
  split at h
  · next hentry => rw [hentry, Option.some.inj h]
  · exact absurd h (by simp)

theorem read_of_entryAt {tree : Tree} {path : Path} {location : Location} {content : Bytes}
    (hlocate : tree.locate path = .ok location)
    (hentry : tree.entryAt location = some (.file content)) : tree.read path = .ok content := by
  rw [read, hlocate]
  dsimp only
  rw [hentry]

theorem isFile_of_locate {tree : Tree} {path : Path} {location : Location}
    (hlocate : tree.locate path = .ok location) :
    tree.isFile path = .ok ((tree.entryAt location).isSome && !tree.isDirectoryAt location) := by
  rw [isFile, lookAt, hlocate, isDirectoryAt]
  dsimp only
  cases tree.entryAt location with
  | none => rfl
  | some entry => cases entry <;> rfl

theorem isFile_of_error {tree other : Tree} {path : Path} {error : FileError}
    (htree : tree.locate path = .error error) (hother : other.locate path = .error error) :
    tree.isFile path = other.isFile path := by
  rw [isFile, isFile, lookAt, lookAt, htree, hother]
  cases error with
  | system cause _ => cases cause <;> rfl
  | _ => rfl

/-- A path with one more part leads on from where it led. -/
theorem walk_child {tree : Tree} {path : Path} {location : Location}
    (hlocate : tree.locate path = .ok location) (name : String) :
    tree.walk (tree.start (path.child name)) (path.child name).parts = tree.walk location [name] :=
  walk_append (locate_eq_ok hlocate).2 [name]

namespace Overwritten

theorem refl (tree : Tree) (changed : Location → Prop) : Overwritten tree tree changed [] where
  current_eq := rfl
  locations_eq := (List.append_nil _).symm
  isDirectoryAt_eq _ := rfl
  entryAt_eq _ _ := rfl

theorem mono {before after : Tree} {changed wider : Location → Prop} {added : List Location}
    (h : Overwritten before after changed added)
    (hwider : ∀ location, changed location → wider location) :
    Overwritten before after wider added :=
  { h with entryAt_eq := fun location hkept =>
      h.entryAt_eq location fun hchanged => hkept (hwider location hchanged) }

theorem trans {first second third : Tree} {changed : Location → Prop}
    {added more : List Location} (h₁ : Overwritten first second changed added)
    (h₂ : Overwritten second third changed more) :
    Overwritten first third changed (added ++ more) where
  current_eq := h₂.current_eq.trans h₁.current_eq
  locations_eq := by rw [h₂.locations_eq, h₁.locations_eq, List.append_assoc]
  isDirectoryAt_eq location :=
    (h₂.isDirectoryAt_eq location).trans (h₁.isDirectoryAt_eq location)
  entryAt_eq location hkept := (h₂.entryAt_eq location hkept).trans (h₁.entryAt_eq location hkept)

end Overwritten

/-- A file is put where no directory is. -/
theorem overwritten_put_file {tree : Tree} {location : Location}
    (hfile : tree.isDirectoryAt location = false) (content : Bytes) :
    Overwritten tree (tree.put location (.file content)) (· = location)
      (if (tree.entryAt location).isSome then [] else [location]) where
  current_eq := rfl
  locations_eq := by
    have hne : location.isEmpty = false := by simpa using ne_nil_of_not_isDirectoryAt hfile
    rw [put, Table.map_fst_put, entryAt, hne]
    rfl
  isDirectoryAt_eq other := by
    by_cases hother : other = location
    · rw [hother, hfile, isDirectoryAt, entryAt_put_self tree (ne_nil_of_not_isDirectoryAt hfile)]
      rfl
    · rw [isDirectoryAt, entryAt_put_of_ne tree hother]
      rfl
  entryAt_eq _ hother := entryAt_put_of_ne tree hother _

namespace Overwritten

variable {before after : Tree} {changed : Location → Prop} {added : List Location}

/-! ## Following paths -/

section Paths

variable (h : Overwritten before after changed added)
include h

theorem isSome_iff {location : Location} :
    (after.entryAt location).isSome = true ↔
      (before.entryAt location).isSome = true ∨ location ∈ added := by
  rw [isSome_entryAt_iff, isSome_entryAt_iff, h.locations_eq, List.mem_append, or_assoc]

/-- A file is one still. -/
theorem isSome_content? {location : Location} (hfile : (before.content? location).isSome = true) :
    (after.content? location).isSome = true := by
  rw [isSome_content?_iff] at hfile ⊢
  exact ⟨h.isSome_iff.mpr (.inl hfile.1), (h.isDirectoryAt_eq location).trans hfile.2⟩

theorem start_eq (path : Path) : after.start path = before.start path := by
  rw [start, start, h.current_eq]

theorem walk_eq_ok {start destination : Location} {parts : List String}
    (hwalk : before.walk start parts = .ok destination) :
    after.walk start parts = .ok destination := by
  induction parts generalizing start with
  | nil => exact hwalk
  | cons part rest ih =>
      rw [walk_cons_eq_ok_iff] at hwalk ⊢
      rw [h.isDirectoryAt_eq]
      obtain ⟨hdirectory, ⟨hup, hwalk⟩ | ⟨hdown, hshort, hsome, hwalk⟩⟩ := hwalk
      · exact ⟨hdirectory, .inl ⟨hup, ih hwalk⟩⟩
      · exact ⟨hdirectory, .inr ⟨hdown, hshort, h.isSome_iff.mpr (.inl hsome), ih hwalk⟩⟩

theorem locate_eq_ok {path : Path} {location : Location}
    (hlocate : before.locate path = .ok location) : after.locate path = .ok location := by
  obtain ⟨hcheck, hwalk⟩ := Tree.locate_eq_ok hlocate
  refine locate_of_walk hcheck ?_
  rw [h.start_eq]
  exact h.walk_eq_ok hwalk

/-- What a path led to is still there, and is a directory or a file as it was. -/
theorem lookAt_eq_some {path : Path} {entry : Entry}
    (hlook : before.lookAt path = .ok (some entry)) :
    ∃ location, before.locate path = .ok location ∧ after.locate path = .ok location ∧
      after.lookAt path = .ok (after.entryAt location) ∧
      (before.entryAt location).isSome = true ∧
      (entry == .directory) = before.isDirectoryAt location := by
  obtain ⟨location, hlocate, hentry⟩ := Tree.lookAt_eq_some hlook
  refine ⟨location, hlocate, h.locate_eq_ok hlocate, ?_, by rw [hentry]; rfl, ?_⟩
  · rw [lookAt, h.locate_eq_ok hlocate]
  · rw [isDirectoryAt, hentry]
    rfl

theorem isDirectory_eq {path : Path} {entry : Entry}
    (hlook : before.lookAt path = .ok (some entry)) :
    after.isDirectory path = before.isDirectory path := by
  obtain ⟨location, -, -, hafter, -, hkind⟩ := h.lookAt_eq_some hlook
  have hsame : (after.entryAt location == some .directory) = (some entry == some .directory) :=
    (h.isDirectoryAt_eq location).trans hkind.symm
  rw [isDirectory, isDirectory, hafter, hlook]
  exact congrArg Except.ok hsame

theorem outputPath_eq {path : Path} {entry : Entry}
    (hlook : before.lookAt path = .ok (some entry)) :
    after.outputPath path = before.outputPath path := by
  obtain ⟨location, hlocate, hthere, -⟩ := h.lookAt_eq_some hlook
  rw [outputPath, outputPath, h.isDirectory_eq hlook, hlocate, hthere]

theorem openNew_eq_ok {path : Path} {location : Location}
    (hopen : before.openNew path = .ok location) : after.openNew path = .ok location := by
  obtain ⟨hnew, hfile⟩ := Tree.openNew_eq_ok hopen
  have hsame : after.locateNew path = .ok location := by
    unfold locateNew at hnew ⊢
    split at hnew
    · exact absurd hnew (by simp)
    · split at hnew
      · next hparts =>
        rw [if_pos hparts]
        exact h.locate_eq_ok hnew
      · next hparts =>
        rw [if_neg hparts]
        split at hnew
        · exact absurd hnew (by simp)
        · next directory hwalk =>
          rw [h.start_eq, h.walk_eq_ok hwalk]
          dsimp only
          rw [h.isDirectoryAt_eq]
          exact hnew
  rw [openNew, hsame]
  dsimp only
  rw [h.isDirectoryAt_eq, hfile]
  rfl

/-! ## Reading sources -/

theorem readSource_eq_of_locate {path : Path} {location : Location}
    (hlocate : before.locate path = .ok location) (hkept : ¬ changed location) :
    after.readSource path = before.readSource path := by
  simp only [readSource, readText, read, hlocate, h.locate_eq_ok hlocate,
    h.entryAt_eq location hkept]

end Paths

section InPlace

variable (h : Overwritten before after changed [])
include h

theorem isSome_eq (location : Location) :
    (after.entryAt location).isSome = (before.entryAt location).isSome := by
  rw [Bool.eq_iff_iff, h.isSome_iff, or_iff_left (by simp)]

theorem walk_eq (start : Location) (parts : List String) :
    after.walk start parts = before.walk start parts := by
  induction parts generalizing start with
  | nil => rfl
  | cons part rest ih => simp only [walk, h.isDirectoryAt_eq, h.isSome_eq, ih]

theorem locate_eq (path : Path) : after.locate path = before.locate path := by
  simp only [locate, h.start_eq, h.walk_eq]

theorem openNew_eq (path : Path) : after.openNew path = before.openNew path := by
  simp only [openNew, locateNew, h.locate_eq, h.start_eq, h.walk_eq, h.isDirectoryAt_eq]

theorem readSource_eq {path : Path}
    (hkept : ∀ location, before.locate path = .ok location → ¬ changed location) :
    after.readSource path = before.readSource path := by
  cases hlocate : before.locate path with
  | ok location => exact h.readSource_eq_of_locate hlocate (hkept location hlocate)
  | error error => simp only [readSource, readText, read, h.locate_eq, hlocate]

end InPlace

/-! ## Finding sources -/

/-- The name of an entry of the directory at a location. -/
private def nameIn? (location inner : Location) : Option String :=
  if inner != [] && inner.dropLast == location then inner.getLast? else none

private theorem nameIn?_eq_some {location inner : Location} {name : String}
    (hname : nameIn? location inner = some name) : inner = location ++ [name] := by
  unfold nameIn? at hname
  split at hname
  · next hinside =>
    simp only [Bool.and_eq_true, beq_iff_eq] at hinside
    obtain ⟨front, rfl⟩ := List.getLast?_eq_some_iff.mp hname
    rw [← hinside.2, List.dropLast_concat]
  · exact absurd hname (by simp)

private theorem namesAt_perm (tree : Tree) (location : Location) :
    (tree.namesAt location).Perm
      ((tree.entries.map Prod.fst).filterMap (nameIn? location)) := by
  rw [namesAt, List.filterMap_map]
  exact List.mergeSort_perm _ _

section Sources

variable (h : Overwritten before after changed added)
include h

/-- The order of the names is told by the names, so those that are chosen are the same if nothing
that was added is chosen. -/
private theorem filter_namesAt_eq {location : Location} {chosen wanted : String → Bool}
    (hsame : ∀ name ∈ before.namesAt location, chosen name = wanted name)
    (hadded : ∀ name, location ++ [name] ∈ added → chosen name = false) :
    (after.namesAt location).filter chosen = (before.namesAt location).filter wanted := by
  have hnew : (added.filterMap (nameIn? location)).filter chosen = [] := by
    rw [List.filter_eq_nil_iff]
    intro name hname
    obtain ⟨inner, hinner, hfound⟩ := List.mem_filterMap.mp hname
    rw [nameIn?_eq_some hfound] at hinner
    simp [hadded name hinner]
  have hperm : ((after.namesAt location).filter chosen).Perm
      ((before.namesAt location).filter wanted) := by
    rw [← List.filter_congr hsame]
    refine ((namesAt_perm after location).filter chosen).trans ?_
    rw [h.locations_eq, List.filterMap_append, List.filter_append, hnew, List.append_nil]
    exact ((namesAt_perm before location).filter chosen).symm
  exact hperm.eq_of_pairwise (fun _ _ _ _ => String.le_antisymm)
    ((pairwise_namesAt after location).sublist List.filter_sublist)
    ((pairwise_namesAt before location).sublist List.filter_sublist)

variable {input : Path} {location : Location} (hlocate : before.locate input = .ok location)
include hlocate

/-- The paths to what is in a directory are followed as before. -/
private theorem locate_child_eq {name : String}
    (hname : (before.entryAt (location ++ [name])).isSome = true) :
    after.locate (input.child name) = before.locate (input.child name) := by
  rw [locate, locate, walk_child hlocate, walk_child (h.locate_eq_ok hlocate)]
  simp only [walk, h.isDirectoryAt_eq, hname, h.isSome_iff.mpr (.inl hname)]

private theorem isOk_isFile_child {name : String}
    (hname : (before.entryAt (location ++ [name])).isSome = true)
    (hasked : (before.isFile (input.child name)).isOk = true) :
    (after.isFile (input.child name)).isOk = true := by
  unfold isFile lookAt at hasked ⊢
  rw [h.locate_child_eq hlocate hname]
  revert hasked
  split <;> simp [Except.map, Except.isOk, Except.toBool]

private theorem isSourceIn_eq {name : String}
    (hname : (before.entryAt (location ++ [name])).isSome = true) :
    after.isSourceIn input name = before.isSourceIn input name := by
  rw [Bool.eq_iff_iff, isSourceIn_iff, isSourceIn_iff]
  refine and_congr_left fun hsuffix => ?_
  have hdown : name ≠ ".." := by
    rintro rfl
    rw [Path.suffix, Path.name_child] at hsuffix
    exact absurd hsuffix (by decide)
  have hsame := h.locate_child_eq hlocate hname
  cases hchild : before.locate (input.child name) with
  | error error =>
      rw [hchild] at hsame
      rw [isFile_of_error hsame hchild]
  | ok inner =>
      obtain rfl : inner = location ++ [name] := by
        have hinner := (Tree.locate_eq_ok hchild).2
        rw [walk_child hlocate, walk_cons_eq_ok_iff] at hinner
        obtain ⟨-, ⟨hup, -⟩ | ⟨-, -, -, hend⟩⟩ := hinner
        · exact absurd hup hdown
        · exact (Except.ok.inj hend).symm
      rw [hchild] at hsame
      rw [isFile_of_locate hsame, isFile_of_locate hchild, h.isDirectoryAt_eq, hname,
        h.isSome_iff.mpr (.inl hname)]

private theorem sourcesIn_eq_ok {paths : List Path} (hfound : before.sourcesIn input = .ok paths)
    (hadded : ∀ name, location ++ [name] ∈ added →
      (after.isFile (input.child name)).isOk = true ∧
        (input.child name).suffix ≠ sourceSuffix) :
    after.sourcesIn input = .ok paths := by
  simp only [sourcesIn, hlocate, h.locate_eq_ok hlocate] at hfound ⊢
  obtain ⟨hasked, rfl⟩ := sourcesAmong_eq_ok_iff.mp hfound
  refine sourcesAmong_eq_ok_iff.mpr ⟨fun name hname => ?_, congrArg (List.map input.child) ?_⟩
  · rcases h.isSome_iff.mp (mem_namesAt_iff.mp hname) with hold | hnew
    · exact h.isOk_isFile_child hlocate hold (hasked name (mem_namesAt_iff.mpr hold))
    · exact (hadded name hnew).1
  · refine h.filter_namesAt_eq (fun name hname => ?_) fun name hnew => ?_
    · exact h.isSourceIn_eq hlocate (mem_namesAt_iff.mp hname)
    · rw [Bool.eq_false_iff, ne_eq, isSourceIn_iff]
      exact fun hsource => (hadded name hnew).2 hsource.2

omit hlocate

/-- The sources of an input are the same, if nothing that was added to it is named as a source. -/
theorem discover_eq_ok {paths : List Path} (hdiscover : before.discover input = .ok paths)
    (hadded : ∀ location name, before.locate input = .ok location →
      before.isDirectoryAt location = true → location ++ [name] ∈ added →
        (after.isFile (input.child name)).isOk = true ∧
          (input.child name).suffix ≠ sourceSuffix) :
    after.discover input = .ok paths := by
  obtain ⟨entry, hlook⟩ := lookAt_of_discover hdiscover
  obtain ⟨location, hlocate, hthere, hafter, hsome, hkind⟩ := h.lookAt_eq_some hlook
  unfold discover at hdiscover ⊢
  rw [hlook] at hdiscover
  rw [hafter]
  have hstill : (after.entryAt location).isSome = true := h.isSome_iff.mpr (.inl hsome)
  cases entry with
  | file content =>
      obtain ⟨written, hwritten⟩ := exists_content hstill
        ((h.isDirectoryAt_eq location).trans hkind.symm)
      rw [hwritten]
      exact hdiscover
  | directory =>
      have hdirectory : before.isDirectoryAt location = true := hkind.symm
      have hentry : after.entryAt location = some .directory := by
        rw [← h.isDirectoryAt_eq] at hdirectory
        exact beq_iff_eq.mp hdirectory
      rw [hentry]
      dsimp only at hdiscover ⊢
      cases hfound : before.sourcesIn input with
      | error error =>
          rw [hfound] at hdiscover
          exact absurd hdiscover (by simp)
      | ok found =>
          rw [h.sourcesIn_eq_ok hlocate hfound fun name => hadded location name hlocate hdirectory,
            ← hfound]
          exact hdiscover

end Sources

end Overwritten

/-! ## Writing -/

/-- A file that was emptied and then filled is as if it had been put there. -/
theorem append_put_nil (tree : Tree) {location : Location} (hlocation : location ≠ [])
    (content : Bytes) :
    (tree.put location (.file [])).append location content = tree.put location (.file content) := by
  rw [append, content?_put_file tree hlocation, Option.getD_some, List.nil_append]
  simp only [put, Table.put_put]

/-- The ways in which writing a file ends. -/
inductive WriteEnds (tree : Tree) (path : Path) (content : Bytes)
    (shortfall? : Location → Bytes → Option Shortfall) : Tree → Except FileError Unit → Prop
  | unopened {error : FileError} (hopen : tree.openNew path = .error error) :
      WriteEnds tree path content shortfall? tree (.error error)
  | short {location : Location} {shortfall : Shortfall}
      (hopen : tree.openNew path = .ok location)
      (hshort : shortfall? location content = some shortfall) :
      WriteEnds tree path content shortfall?
        (tree.put location (.file (content.take shortfall.taken)))
        (.error (.unwritten shortfall.fault))
  | full {location : Location} (hopen : tree.openNew path = .ok location)
      (hfull : shortfall? location content = none) :
      WriteEnds tree path content shortfall? (tree.put location (.file content)) (.ok ())

section Writing

variable {tree : Tree} {path : Path} {content : Bytes}
  {shortfall? : Location → Bytes → Option Shortfall}

theorem WriteEnds.write_eq {after : Tree} {result : Except FileError Unit}
    (h : WriteEnds tree path content shortfall? after result) :
    tree.write path content shortfall? = (after, result) := by
  unfold write
  cases h with
  | unopened hopen => rw [hopen]
  | short hopen hshort =>
      have hlocation := ne_nil_of_not_isDirectoryAt (openNew_eq_ok hopen).2
      simp only [hopen, hshort, append_put_nil tree hlocation]
  | full hopen hfull =>
      have hlocation := ne_nil_of_not_isDirectoryAt (openNew_eq_ok hopen).2
      simp only [hopen, hfull, append_put_nil tree hlocation]

/-- Writing ends in one of these ways. -/
theorem write_ends (tree : Tree) (path : Path) (content : Bytes)
    (shortfall? : Location → Bytes → Option Shortfall) :
    WriteEnds tree path content shortfall? (tree.write path content shortfall?).1
      (tree.write path content shortfall?).2 := by
  obtain ⟨after, result, hends⟩ :
      ∃ after result, WriteEnds tree path content shortfall? after result := by
    cases hopen : tree.openNew path with
    | error error => exact ⟨_, _, .unopened hopen⟩
    | ok location =>
        cases hshort : shortfall? location content with
        | none => exact ⟨_, _, .full hopen hshort⟩
        | some shortfall => exact ⟨_, _, .short hopen hshort⟩
  rw [hends.write_eq]
  exact hends

/-- What is put into a file that was opened is read back. -/
theorem read_of_openNew {location : Location} (hopen : tree.openNew path = .ok location)
    (content : Bytes) :
    (tree.put location (.file content)).locate path = .ok location ∧
      (tree.put location (.file content)).read path = .ok content := by
  have hfile := (openNew_eq_ok hopen).2
  have hwritten := overwritten_put_file hfile content
  have hentry := entryAt_put_self tree (ne_nil_of_not_isDirectoryAt hfile) (.file content)
  have hlocate := locate_of_openNew (hwritten.openNew_eq_ok hopen)
    (Option.isSome_of_eq_some hentry)
  exact ⟨hlocate, read_of_entryAt hlocate hentry⟩

end Writing

end Files.Tree

end HackVm
