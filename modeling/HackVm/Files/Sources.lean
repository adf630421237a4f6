import HackVm.Files.Tree
import HackVm.Vm.Source

/-!
# Sources in a file tree

The input of a compilation is a source file or a directory of source files.  `Tree.discover` finds
the source files, `Tree.outputPath` names the output that belongs to an input, and
`Tree.readSource` reads one source, which is named after its file.
-/

namespace HackVm.Files

/-- The suffix of source files. -/
def sourceSuffix : String := ".vm"

/-- The suffix of output files. -/
def outputSuffix : String := ".asm"

/-- Why a path is no input. -/
inductive InputError where
  /-- The directory holds no source file. -/
  | noSources (path : Path)
  /-- The file is not named as a source. -/
  | wrongSuffix (path : Path)
  /-- The path leads to neither a directory nor a file. -/
  | notFound (path : Path)
  deriving DecidableEq, Repr

/-- The wording of an input error. -/
def InputError.message : InputError → String
  | .noSources path => "No " ++ sourceSuffix ++ " files in " ++ path.text
  | .wrongSuffix path => "Expected a " ++ sourceSuffix ++ " file, got " ++ path.name
  | .notFound path => "Input not found: " ++ path.text

/-- Why no sources were found. -/
inductive DiscoverError where
  | input (error : InputError)
  | file (error : FileError)
  deriving DecidableEq, Repr

namespace Tree

/-- The paths of those names in a directory that lead to source files. -/
def sourcesAmong (tree : Tree) (path : Path) : List String → Except FileError (List Path)
  | [] => .ok []
  | name :: rest =>
    let inner := path.child name
    match tree.isFile inner with
    | .error error => .error error
    | .ok isFile =>
      match tree.sourcesAmong path rest with
      | .error error => .error error
      | .ok others =>
        .ok (if isFile && inner.suffix == sourceSuffix then inner :: others else others)

/-- The source files in the directory that a path leads to, in the order of their names. -/
def sourcesIn (tree : Tree) (path : Path) : Except FileError (List Path) :=
  match tree.locate path with
  | .error error => .error error
  | .ok location => tree.sourcesAmong path (tree.namesAt location)

/-- The source files of an input, in the order in which they are compiled. -/
def discover (tree : Tree) (path : Path) : Except DiscoverError (List Path) :=
  match tree.lookAt path with
  | .error error => .error (.file error)
  | .ok (some .directory) =>
    match tree.sourcesIn path with
    | .error error => .error (.file error)
    | .ok [] => .error (.input (.noSources path))
    | .ok sources => .ok sources
  | .ok (some (.file _)) =>
    if path.suffix == sourceSuffix then .ok [path] else .error (.input (.wrongSuffix path))
  | .ok none => .error (.input (.notFound path))

/-- The output of an input: beside a source file, with its suffix replaced, and inside a
directory, with the name of the directory. -/
def outputPath (tree : Tree) (path : Path) : Except FileError Path :=
  match tree.isDirectory path with
  | .error error => .error error
  | .ok false => .ok (path.withSuffix outputSuffix)
  | .ok true =>
    match tree.locate path with
    | .error error => .error error
    | .ok location => .ok (path.child (location.getLast?.getD "" ++ outputSuffix))

/-- Reads a source.  Its name is the name of the file without the suffix. -/
def readSource (tree : Tree) (path : Path) : Except FileError Source :=
  (tree.readText path).map (Source.ofText path.stem)

end Tree

end HackVm.Files
