import HackVm.Text.LineBreak

/-!
# Sources

A source is a named list of lines.  The name keeps its static variables apart from those of other
sources.
-/

namespace HackVm

/-- A named list of lines. -/
structure Source where
  name : String
  lines : List String
  deriving DecidableEq, Repr

/-- The source with a given text. -/
def Source.ofText (name text : String) : Source :=
  ⟨name, Text.lines text⟩

end HackVm
