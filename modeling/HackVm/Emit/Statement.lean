import HackVm.Hack.Instruction
import HackVm.Vm.Command

/-!
# Assembly statements

Emitted code is a list of statements.  A statement loads a symbol, computes, declares a label or
is a comment.  Symbols say what they stand for: a register, a number, a static variable, a name
that the program uses, or a label made up for a comparison or for the return of a call.

`assembly` is the text of a list of statements, one line for each.
-/

namespace HackVm.Emit

open Hack

/-- The registers that emitted code uses by name. -/
inductive Register where
  /-- The stack pointer. -/
  | sp
  /-- The base of the local variables. -/
  | lcl
  /-- The base of the arguments. -/
  | arg
  /-- The base of segment `this`. -/
  | this
  /-- The base of segment `that`. -/
  | that
  /-- A scratch cell: an address to store to, a return address, or an operand of a comparison. -/
  | scratch
  /-- A scratch cell for the frame that is left by a return. -/
  | frame
  deriving DecidableEq, Repr

/-- The name of a register. -/
def Register.text : Register → String
  | .sp => "SP"
  | .lcl => "LCL"
  | .arg => "ARG"
  | .this => "THIS"
  | .that => "THAT"
  | .scratch => "R13"
  | .frame => "R14"

/-- The operators that compare. -/
inductive Comparison where
  | eq | gt | lt
  deriving DecidableEq, Repr

/-- The name of a comparison in labels. -/
def Comparison.text : Comparison → String
  | .eq => "EQ"
  | .gt => "GT"
  | .lt => "LT"

/-- The condition on the difference of the operands under which a comparison holds. -/
def Comparison.jump : Comparison → Jump
  | .eq => .eq
  | .gt => .gt
  | .lt => .lt

/-- The places inside the code of a comparison. -/
inductive Place where
  /-- The comparison holds. -/
  | holds
  /-- The code after the comparison. -/
  | done
  /-- The lower operand is negative. -/
  | negative
  /-- Both operands have the same sign. -/
  | sameSign
  /-- The difference is known by its sign. -/
  | test
  deriving DecidableEq, Repr

/-- How the label of a place begins. -/
def Place.text : Place → String
  | .holds => "__CMP_TRUE_"
  | .done => "__CMP_END_"
  | .negative => "__CMP_XNEG_"
  | .sameSign => "__CMP_SAME_"
  | .test => "__CMP_TEST_"

/-- What a name in assembly stands for. -/
inductive Symbol where
  /-- A register. -/
  | register (r : Register)
  /-- A number. -/
  | number (value : Int)
  /-- A static variable of a source. -/
  | static (source : String) (index : Int)
  /-- A label or function name of the program. -/
  | name (word : String)
  /-- A place inside the code of the comparison with the given serial number. -/
  | comparison (place : Place) (operator : Comparison) (serial : Nat)
  /-- The return of the call with the given serial number, made in a function. -/
  | returnOf (function : String) (serial : Nat)
  deriving DecidableEq, Repr

namespace Symbol

/-- A symbol as it is written. -/
def text : Symbol → String
  | .register r => r.text
  | .number value => Text.decimal value
  | .static source index => source ++ "." ++ Text.decimal index
  | .name word => word
  | .comparison place operator serial =>
    place.text ++ operator.text ++ "_" ++ Text.natural serial
  | .returnOf function serial => function ++ "$ret." ++ Text.natural serial

/-- The numbers that programs put into a symbol are within the digit limit. -/
def isWritable : Symbol → Bool
  | .number value => Text.isWritable value
  | .static _ index => Text.isWritable index
  | _ => true

end Symbol

/-- One line of assembly. -/
inductive Statement where
  /-- A comment. -/
  | comment (text : String)
  /-- Declares a label. -/
  | declare (symbol : Symbol)
  /-- Loads a symbol into the address register. -/
  | load (symbol : Symbol)
  /-- Computes. -/
  | compute (destination : Destination) (computation : Computation) (jump : Option Jump)
  deriving DecidableEq, Repr

namespace Statement

/-- A statement as it is written. -/
def text : Statement → String
  | .comment shown => "// " ++ shown
  | .declare symbol => "(" ++ symbol.text ++ ")"
  | .load symbol => "@" ++ symbol.text
  | .compute destination computation jump => computeText destination computation jump

/-- The statement is within the digit limit. -/
def isWritable : Statement → Bool
  | .declare symbol => symbol.isWritable
  | .load symbol => symbol.isWritable
  | _ => true

end Statement

/-- The text of a list of statements, each on a line of its own. -/
def assembly (statements : List Statement) : String :=
  String.ofList (statements.flatMap fun statement => statement.text.toList ++ ['\n'])

@[simp] theorem assembly_nil : assembly [] = "" := rfl

/-- The text of two lists together is the text of the first followed by that of the second. -/
theorem assembly_append (first second : List Statement) :
    assembly (first ++ second) = assembly first ++ assembly second := by
  simp [assembly]

end HackVm.Emit
