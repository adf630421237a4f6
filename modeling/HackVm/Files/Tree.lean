import HackVm.Files.Path
import HackVm.Table
import HackVm.Text.LineBreak
import HackVm.Text.Utf8

/-!
# File trees

A tree holds directories and files, each at a location: the names that lead to it from the top.
Paths are followed from the current directory, part by part, and can fail as they do on a disk: a
part is missing, a file stands where a directory is needed, a name is too long.

The operations are those that a compiler needs: looking what a path is, listing a directory,
reading, writing and appending to files, and making directories.  A failed operation changes
nothing, with two exceptions: `makeDirectories` keeps the directories it made before it failed, and
`write` empties a file before it is known whether the file takes what is written.
-/

namespace HackVm.Files

open HackVm.Text (Bytes)

/-- The names that lead from the top to an entry. -/
abbrev Location := List String

/-- What is found at a location. -/
inductive Entry where
  | directory
  | file (content : Bytes)
  deriving DecidableEq, Repr

/-- A file tree with a current directory.  The top is always a directory. -/
structure Tree where
  entries : Table Location Entry
  current : Location
  deriving DecidableEq, Repr

/-- Why the system refuses an operation. -/
inductive Cause where
  | noSuchEntry | alreadyExists | notDirectory | isDirectory | nameTooLong
  deriving DecidableEq, Repr

/-- The number of a cause. -/
def Cause.code : Cause → Nat
  | .noSuchEntry => 2
  | .alreadyExists => 17
  | .notDirectory => 20
  | .isDirectory => 21
  | .nameTooLong => 36

/-- The wording of a cause. -/
def Cause.message : Cause → String
  | .noSuchEntry => "No such file or directory"
  | .alreadyExists => "File exists"
  | .notDirectory => "Not a directory"
  | .isDirectory => "Is a directory"
  | .nameTooLong => "File name too long"

/-- Why a file that was opened does not take what is written. -/
inductive WriteFault where
  /-- The system refuses to go on, for a cause that it gives a number and a wording. -/
  | system (code : Nat) (wording : String)
  /-- Anything else. -/
  | other (wording : String)
  deriving DecidableEq, Repr

/-- The wording of a fault. -/
def WriteFault.message : WriteFault → String
  | .system code wording => "[Errno " ++ Text.natural code ++ "] " ++ wording
  | .other wording => wording

/-- How writing falls short: the number of bytes that the file has taken, and why it takes no
more. -/
structure Shortfall where
  taken : Nat
  fault : WriteFault
  deriving DecidableEq, Repr

/-- Why an operation on a path failed. -/
inductive FileError where
  /-- The system refused it. -/
  | system (cause : Cause) (path : Path)
  /-- The path holds a NUL character, which no name can have. -/
  | nulInPath
  /-- The content of a file is not UTF-8. -/
  | notText (error : Text.Utf8Error)
  /-- The file was opened, and did not take all that was written. -/
  | unwritten (fault : WriteFault)
  deriving DecidableEq, Repr

/-- The wording of a file error. -/
def FileError.message : FileError → String
  | .system cause path =>
    "[Errno " ++ Text.natural cause.code ++ "] " ++ cause.message ++ ": " ++ Text.quoted path.text
  | .nulInPath => "embedded null byte"
  | .notText error => error.message
  | .unwritten fault => fault.message

/-- The longest name, in bytes. -/
def maxNameBytes : Nat := 255

/-- The longest path, in bytes. -/
def maxPathBytes : Nat := 4095

namespace Tree

/-- What is found at a location. -/
def entryAt (tree : Tree) (location : Location) : Option Entry :=
  if location.isEmpty then some .directory else tree.entries.lookup location

/-- The content of the file at a location. -/
def content? (tree : Tree) (location : Location) : Option Bytes :=
  match tree.entryAt location with
  | some (.file content) => some content
  | _ => none

/-- A directory is at the location. -/
def isDirectoryAt (tree : Tree) (location : Location) : Bool :=
  tree.entryAt location == some .directory

/-- Puts an entry at a location, in the place of the one that was there. -/
def put (tree : Tree) (location : Location) (entry : Entry) : Tree :=
  { tree with entries := tree.entries.put location entry }

@[simp] theorem entryAt_nil (tree : Tree) : tree.entryAt [] = some .directory := rfl

/-- What was put at a location is found there. -/
theorem entryAt_put_self (tree : Tree) {location : Location} (hlocation : location ≠ [])
    (entry : Entry) : (tree.put location entry).entryAt location = some entry := by
  have hempty : location.isEmpty = false := by simpa using hlocation
  simp only [entryAt, put, hempty, Bool.false_eq_true, if_false]
  exact Table.lookup_put_self tree.entries location entry

/-- Putting an entry at a location changes no other location. -/
theorem entryAt_put_of_ne (tree : Tree) {location other : Location} (hother : other ≠ location)
    (entry : Entry) : (tree.put location entry).entryAt other = tree.entryAt other := by
  simp only [entryAt, put]
  rw [Table.lookup_put_of_ne tree.entries hother entry]

/-! ## Following paths -/

/-- Follows the parts of a path from a location to an entry that exists. -/
def walk (tree : Tree) (location : Location) : List String → Except Cause Location
  | [] => .ok location
  | part :: rest =>
    if !tree.isDirectoryAt location then .error .notDirectory
    else if part == ".." then tree.walk location.dropLast rest
    else if maxNameBytes < part.utf8ByteSize then .error .nameTooLong
    else
      let inner := location ++ [part]
      if (tree.entryAt inner).isSome then tree.walk inner rest else .error .noSuchEntry

/-- The location from which a path is followed. -/
def start (tree : Tree) (path : Path) : Location :=
  if path.anchor.isEmpty then tree.current else []

/-- Refuses paths that no system call takes. -/
def checkPath (path : Path) : Except FileError Unit :=
  if path.text.toList.contains (Char.ofNat 0) then .error .nulInPath
  else if maxPathBytes < path.text.utf8ByteSize then .error (.system .nameTooLong path)
  else .ok ()

/-- The location of the entry that a path leads to. -/
def locate (tree : Tree) (path : Path) : Except FileError Location :=
  match checkPath path with
  | .error error => .error error
  | .ok () => (tree.walk (tree.start path) path.parts).mapError (.system · path)

/-- The location that a new entry at the path would have, or that of the directory which a path
without a name of its own leads to. -/
def locateNew (tree : Tree) (path : Path) : Except FileError Location :=
  match checkPath path with
  | .error error => .error error
  | .ok () =>
    if path.parts.isEmpty || path.name == ".." then tree.locate path
    else
      match tree.walk (tree.start path) path.parts.dropLast with
      | .error cause => .error (.system cause path)
      | .ok location =>
        if !tree.isDirectoryAt location then .error (.system .notDirectory path)
        else if maxNameBytes < path.name.utf8ByteSize then .error (.system .nameTooLong path)
        else .ok (location ++ [path.name])

/-- What a path leads to, where a path that leads nowhere is no error. -/
def lookAt (tree : Tree) (path : Path) : Except FileError (Option Entry) :=
  match tree.locate path with
  | .ok location => .ok (tree.entryAt location)
  | .error (.system .nameTooLong path) => .error (.system .nameTooLong path)
  | .error _ => .ok none

/-- A path leads to a directory. -/
def isDirectory (tree : Tree) (path : Path) : Except FileError Bool :=
  (tree.lookAt path).map (· == some .directory)

/-- A path leads to a file. -/
def isFile (tree : Tree) (path : Path) : Except FileError Bool :=
  (tree.lookAt path).map fun entry =>
    match entry with
    | some (.file _) => true
    | _ => false

/-- The names in the directory at a location, in the order of their characters. -/
def namesAt (tree : Tree) (location : Location) : List String :=
  let names := tree.entries.filterMap fun old =>
    if old.1 != [] && old.1.dropLast == location then old.1.getLast? else none
  names.mergeSort fun first second => !decide (second < first)

/-! ## Files and directories -/

/-- The content of a file. -/
def read (tree : Tree) (path : Path) : Except FileError Bytes :=
  match tree.locate path with
  | .error error => .error error
  | .ok location =>
    match tree.entryAt location with
    | some (.file content) => .ok content
    | some .directory => .error (.system .isDirectory path)
    | none => .error (.system .noSuchEntry path)

/-- The text of a file, with its newlines folded. -/
def readText (tree : Tree) (path : Path) : Except FileError String :=
  match tree.read path with
  | .error error => .error error
  | .ok content =>
    match Text.decode content with
    | .error error => .error (.notText error)
    | .ok text => .ok (String.ofList (Text.foldNewlines text.toList))

/-- The location of a file that is opened for writing, whether it exists or has to be made. -/
def openNew (tree : Tree) (path : Path) : Except FileError Location :=
  match tree.locateNew path with
  | .error error => .error error
  | .ok location =>
    if tree.isDirectoryAt location then .error (.system .isDirectory path) else .ok location

/-- Appends to the file at a location, which is made if it is missing. -/
def append (tree : Tree) (location : Location) (content : Bytes) : Tree :=
  tree.put location (.file ((tree.content? location).getD [] ++ content))

/-- Writes a file, in the place of the one that was there.  To open the file empties it, and only
then it takes the content: all of it, or as much as `shortfall?` tells. -/
def write (tree : Tree) (path : Path) (content : Bytes)
    (shortfall? : Location → Bytes → Option Shortfall) : Tree × Except FileError Unit :=
  match tree.openNew path with
  | .error error => (tree, .error error)
  | .ok location =>
    let opened := tree.put location (.file [])
    match shortfall? location content with
    | none => (opened.append location content, .ok ())
    | some shortfall =>
      (opened.append location (content.take shortfall.taken), .error (.unwritten shortfall.fault))

/-- Makes one directory. -/
def makeDirectory (tree : Tree) (path : Path) : Except FileError Tree :=
  match tree.locateNew path with
  | .error error => .error error
  | .ok location =>
    if (tree.entryAt location).isSome then .error (.system .alreadyExists path)
    else .ok (tree.put location .directory)

/-- What remains of a failure to make a directory: nothing if the path leads to a directory all
the same. -/
def tolerate (tree : Tree) (path : Path) (error : FileError) : Except FileError Unit :=
  match error with
  | .system .noSuchEntry _ => .error error
  | .system _ _ =>
    match tree.isDirectory path with
    | .ok true => .ok ()
    | .ok false => .error error
    | .error other => .error other
  | _ => .error error

/-- Makes the directory of a path that is given last part first, and the directories above it that
are missing. -/
def makeDirectoriesFrom (tree : Tree) (anchor : String) :
    List String → Tree × Except FileError Unit
  | [] =>
    let path : Path := ⟨anchor, []⟩
    match tree.makeDirectory path with
    | .ok made => (made, .ok ())
    | .error error => (tree, tree.tolerate path error)
  | name :: above =>
    let path : Path := ⟨anchor, (name :: above).reverse⟩
    match tree.makeDirectory path with
    | .ok made => (made, .ok ())
    | .error (.system .noSuchEntry _) =>
      match tree.makeDirectoriesFrom anchor above with
      | (tree, .error error) => (tree, .error error)
      | (tree, .ok ()) =>
        match tree.makeDirectory path with
        | .ok made => (made, .ok ())
        | .error error => (tree, tree.tolerate path error)
    | .error error => (tree, tree.tolerate path error)

/-- Makes a directory, and the directories above it that are missing.  A directory that exists is
no error. -/
def makeDirectories (tree : Tree) (path : Path) : Tree × Except FileError Unit :=
  tree.makeDirectoriesFrom path.anchor path.parts.reverse

/-- The absolute path of a location that is written from the current directory, where `..` takes
away the name before it without a look at the tree. -/
def absolute (tree : Tree) (path : Path) : Path where
  anchor := if path.anchor.isEmpty then "/" else path.anchor
  parts := path.parts.foldl
    (fun location part => if part == ".." then location.dropLast else location ++ [part])
    (tree.start path)

end Tree

end HackVm.Files
