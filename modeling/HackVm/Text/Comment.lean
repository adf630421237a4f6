import HackVm.Text.Blank

/-!
# Line comments

Source lines and assembly lines have the same comments: everything from the first `//` on.  What
counts of a line is the part before it, without the blanks at its ends.
-/

namespace HackVm.Text

/-- The characters before the first `//`. -/
def beforeComment : List Char → List Char
  | [] => []
  | '/' :: '/' :: _ => []
  | c :: rest => c :: beforeComment rest

/-- A line without its comment and without blanks at its ends. -/
def significantPart (line : List Char) : List Char :=
  trim (beforeComment line)

end HackVm.Text
