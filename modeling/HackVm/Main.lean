import HackVm.Cli.Run
import Std.Time.Format

/-!
# The program

The command line works on a picture of the disk.  `main` takes a picture of what the arguments
name, runs the command line on it, and then makes the changes on the disk.
-/

namespace HackVm.Main

open Files Log

/-- The text of the absolute path of a location. -/
def absoluteText (location : Location) : String :=
  "/" ++ String.intercalate "/" location

/-- Adds what is found on the disk at a location.  Contents are read only when they are wanted. -/
def look (wanted : Bool) (tree : Tree) (location : Location) : IO Tree := do
  let path := (← IO.currentDir) / absoluteText location
  if location.isEmpty || !(← path.pathExists) then return tree
  else if ← path.isDir then return tree.put location .directory
  else
    let content ← if wanted then IO.FS.readBinFile path else pure ByteArray.empty
    return tree.put location (.file content.toList)

/-- Adds everything that a path leads through, and the entries of a directory that it leads to. -/
def picture (tree : Tree) (path : Path) : IO Tree := do
  let mut tree := tree
  let mut location := tree.start path
  for part in path.parts do
    location := if part == ".." then location.dropLast else location ++ [part]
    tree ← look true tree location
  if tree.isDirectoryAt location then
    let directory := (← IO.currentDir) / absoluteText location
    for entry in ← directory.readDir do
      let inner := location ++ [entry.fileName]
      if (tree.entryAt inner).isNone then
        tree ← look ((path.child entry.fileName).suffix == sourceSuffix) tree inner
  return tree

/-- The tree of the current directory alone. -/
def currentTree : IO Tree := do
  let current := (Path.ofString (← IO.currentDir).toString).parts
  let above := (List.range current.length).map fun count =>
    (current.take (count + 1), Entry.directory)
  return ⟨above, current⟩

/-- Makes the changes on the disk that lead from one tree to another. -/
def makeChanges (before after : Tree) : IO Unit := do
  for (location, entry) in after.entries do
    if before.entryAt location != some entry then
      let path := (← IO.currentDir) / absoluteText location
      match entry with
      | .directory => IO.FS.createDirAll path
      | .file content => IO.FS.writeBinFile path content.toByteArray

/-- The paths that arguments name. -/
def namedPaths (host : Host) (arguments : List String) : List Path :=
  match Cli.Arguments.ofList host.keepsSeparator arguments with
  | .error _ => []
  | .ok arguments =>
    let input := Path.ofString arguments.input
    let others := [arguments.output, arguments.logFile].filterMap Cli.given?
    [input, input.withSuffix outputSuffix] ++ others.map Path.ofString

/-- One line of the console. -/
def consoleLine (record : Record) : String :=
  padRight (levelWidth + 1) (levelName record.level) ++ record.message

end HackVm.Main

open HackVm Main in
/-- Runs the command line on the disk. -/
def main (arguments : List String) : IO UInt32 := do
  let mut tree ← currentTree
  let host : Host := {}
  for path in namedPaths host arguments do
    tree ← picture tree path
  let time := (← Std.Time.PlainDateTime.now).format "uuuu-MM-dd HH:mm:ss"
  let world : World := ⟨tree, .initial, [], time, host⟩
  let (after, ended) := Cli.run world arguments
  makeChanges tree after.tree
  for shown in after.console do
    IO.eprintln (consoleLine shown.record)
  match ended with
  | .exit code stdout =>
    IO.print stdout
    return code.toUInt32
  | .byArguments code stdout stderr =>
    IO.print stdout
    IO.eprint stderr
    return code.toUInt32
  | .broken error =>
    IO.eprintln error.message
    return 1
