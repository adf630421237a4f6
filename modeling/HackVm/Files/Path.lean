/-!
# Paths

A path is a sequence of parts, relative to the current directory unless it has an anchor.  Empty
parts and `.` say nothing and vanish; `..` stays, because what it means depends on the file tree.
The empty path is the current directory and is written `.`.

The suffix of a name starts at its last dot, unless that dot is the first or the last character.
-/

namespace HackVm.Files

/-- A path in normal form. -/
structure Path where
  /-- Empty for a relative path, otherwise the slashes that it starts with. -/
  anchor : String
  /-- The parts, none of them empty or a single dot. -/
  parts : List String
  deriving DecidableEq, Repr

/-- The pieces of a text between slashes, where `piece` holds the characters of a piece already
begun, last one first. -/
def piecesFrom (piece : List Char) : List Char → List (List Char)
  | [] => [piece.reverse]
  | c :: rest =>
    if c == '/' then piece.reverse :: piecesFrom [] rest else piecesFrom (c :: piece) rest

/-- The anchor of a path text: exactly two slashes at the start stay two, any other number of them
counts as one. -/
def anchorOf : List Char → String
  | '/' :: '/' :: '/' :: _ => "/"
  | '/' :: '/' :: _ => "//"
  | '/' :: _ => "/"
  | _ => ""

namespace Path

/-- The path that a text means. -/
def ofString (text : String) : Path where
  anchor := anchorOf text.toList
  parts := ((piecesFrom [] text.toList).filter fun piece => piece != [] && piece != ['.']).map
    String.ofList

/-- A path as it is written. -/
def text (path : Path) : String :=
  if path.anchor.isEmpty && path.parts.isEmpty then "."
  else path.anchor ++ String.intercalate "/" path.parts

/-- The last part, empty when there is none. -/
def name (path : Path) : String :=
  path.parts.getLast?.getD ""

/-- The path without its last part. -/
def parent (path : Path) : Path :=
  { path with parts := path.parts.dropLast }

/-- The path with one more part. -/
def child (path : Path) (name : String) : Path :=
  { path with parts := path.parts ++ [name] }

end Path

/-- Splits a name before its last dot, if that is neither its first nor its last character. -/
def splitSuffix (name : String) : String × String :=
  let chars := name.toList
  let tail := chars.reverse.takeWhile (· != '.')
  let stem := chars.take (chars.length - tail.length - 1)
  if stem.isEmpty || tail.isEmpty || tail.length == chars.length then (name, "")
  else (String.ofList stem, String.ofList ('.' :: tail.reverse))

namespace Path

/-- The suffix of the last part, with its dot. -/
def suffix (path : Path) : String :=
  (splitSuffix path.name).2

/-- The last part without its suffix. -/
def stem (path : Path) : String :=
  (splitSuffix path.name).1

/-- The path with another suffix. -/
def withSuffix (path : Path) (suffix : String) : Path :=
  path.parent.child (path.stem ++ suffix)

end Path

end HackVm.Files
