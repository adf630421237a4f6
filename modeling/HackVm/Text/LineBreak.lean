/-!
# Line breaks

A text is cut into lines at eleven kinds of break: line feed, carriage return, the two together
as one break, vertical tab, form feed, the three upper information separators, next line, line
separator and paragraph separator.  A break at the very end starts no further line.

`feedLines` cuts at line feeds alone, as files that are written line by line are cut.

`foldNewlines` is what reading a text file does before that: a carriage return, alone or before a
line feed, becomes a single line feed.
-/

namespace HackVm.Text

/-- Characters at which a line ends. -/
def isLineBreak (c : Char) : Bool :=
  let code := c.toNat
  (0x0A ≤ code && code ≤ 0x0D) || (0x1C ≤ code && code ≤ 0x1E) || code == 0x85 ||
    code == 0x2028 || code == 0x2029

/-- The lines of a text, where `line` holds the characters of a line already begun, last one
first. -/
def linesFrom (line : List Char) : List Char → List (List Char)
  | [] => if line.isEmpty then [] else [line.reverse]
  | '\r' :: '\n' :: rest => line.reverse :: linesFrom [] rest
  | c :: rest =>
    if isLineBreak c then line.reverse :: linesFrom [] rest else linesFrom (c :: line) rest

/-- The lines of a text without their breaks. -/
def lines (text : String) : List String :=
  (linesFrom [] text.toList).map String.ofList

/-- The pieces between line feeds, where `piece` holds the characters of a piece already begun,
last one first. -/
def feedLinesFrom (piece : List Char) : List Char → List (List Char)
  | [] => [piece.reverse]
  | c :: rest =>
    if c == '\n' then piece.reverse :: feedLinesFrom [] rest else feedLinesFrom (c :: piece) rest

/-- The pieces of a text between line feeds. -/
def feedLines (text : List Char) : List (List Char) :=
  feedLinesFrom [] text

/-- Turns every carriage return, with the line feed after it if there is one, into a line feed. -/
def foldNewlines : List Char → List Char
  | [] => []
  | '\r' :: '\n' :: rest => '\n' :: foldNewlines rest
  | c :: rest => (if c == '\r' then '\n' else c) :: foldNewlines rest

@[simp] theorem linesFrom_nil_nil : linesFrom [] [] = [] := rfl

@[simp] theorem foldNewlines_nil : foldNewlines [] = [] := rfl

end HackVm.Text
