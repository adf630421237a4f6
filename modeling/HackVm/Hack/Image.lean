import HackVm.Hack.Instruction
import HackVm.Table
import HackVm.Text.Comment
import HackVm.Text.LineBreak
import HackVm.Text.Numeral

/-!
# Loading assembly text

An image is what the machine runs: its instructions and the meaning of its symbols.  Loading goes
over the significant lines twice.  First every line that starts with a parenthesis declares its
name as a label of the next instruction.  Then every other line becomes one instruction.

A symbol means the label of that name, else the predefined register of that name, else a variable.
Variables get the memory cells from 16 on in the order of their first use.
-/

namespace HackVm.Hack

/-- Why a text cannot be loaded. -/
inductive LoadError where
  /-- A label is declared twice. -/
  | duplicateLabel (name : String)
  /-- No such computation. -/
  | badComputation (mnemonic line : String)
  /-- No such jump. -/
  | badJump (mnemonic line : String)
  /-- No such destination. -/
  | badDestination (mnemonic line : String)
  /-- A number made of digit signs cannot be read. -/
  | number (error : Text.NumberError)
  deriving DecidableEq, Repr

/-- A mnemonic that is none of its kind, with the line it was found in. -/
def badMnemonic (kind mnemonic line : String) : String :=
  "bad " ++ kind ++ " " ++ Text.quoted mnemonic ++ " in " ++ Text.quoted line

/-- The wording of a load error. -/
def LoadError.message : LoadError → String
  | .duplicateLabel name => "duplicate label " ++ name
  | .badComputation mnemonic line => badMnemonic "comp" mnemonic line
  | .badJump mnemonic line => badMnemonic "jump" mnemonic line
  | .badDestination mnemonic line => badMnemonic "dest" mnemonic line
  | .number error => error.message

/-- Names with their addresses. -/
abbrev Symbols := Table String Nat

/-- The predefined symbols: the registers by role and by number, the screen and the keyboard. -/
def predefined : Symbols :=
  [("SP", 0), ("LCL", 1), ("ARG", 2), ("THIS", 3), ("THAT", 4), ("SCREEN", 16384), ("KBD", 24576),
   ("R0", 0), ("R1", 1), ("R2", 2), ("R3", 3), ("R4", 4), ("R5", 5), ("R6", 6), ("R7", 7),
   ("R8", 8), ("R9", 9), ("R10", 10), ("R11", 11), ("R12", 12), ("R13", 13), ("R14", 14),
   ("R15", 15)]

/-- The memory cell of the first variable. -/
def variableBase : Nat := 16

/-- A loaded program. -/
structure Image where
  /-- The instructions. -/
  rom : Array Instruction
  /-- The labels with the addresses of the instructions after them. -/
  labels : Symbols
  /-- The variables with their memory cells, in the order of first use. -/
  allocated : Symbols
  deriving DecidableEq, Repr

/-- The meaning of a symbol in an image. -/
def Image.symbol? (image : Image) (name : String) : Option Nat :=
  (image.labels.lookup name).or ((predefined.lookup name).or (image.allocated.lookup name))

/-! ## Lines -/

/-- The significant lines of an assembly text. -/
def significantLines (text : String) : List (List Char) :=
  ((Text.linesFrom [] text.toList).map Text.significantPart).filter (!·.isEmpty)

/-- The name that a line declares: the line without its first and last character, if it starts
with a parenthesis. -/
def labelOf? : List Char → Option String
  | '(' :: rest => some (String.ofList rest.dropLast)
  | _ => none

/-- The part of a text before the first `mark` and the part after it. -/
def splitAt? (mark : Char) (text : List Char) : Option (List Char × List Char) :=
  let before := text.takeWhile (· != mark)
  match text.drop before.length with
  | [] => none
  | _ :: after => some (before, after)

/-- Reads a computing instruction.  The destination stands before the first `=`, the jump after
the first `;` of the rest, and both may be empty. -/
def readCompute (line : List Char) : Except LoadError Instruction :=
  let (destination, rest) := (splitAt? '=' line).getD ([], line)
  let (computation, jump) := (splitAt? ';' rest).getD (rest, [])
  let shown := String.ofList line
  match Computation.ofText? (String.ofList computation) with
  | none => .error (.badComputation (String.ofList computation) shown)
  | some function =>
    match jump, Jump.ofText? (String.ofList jump) with
    | _ :: _, none => .error (.badJump (String.ofList jump) shown)
    | _, condition =>
      match Destination.ofText? (String.ofList destination) with
      | none => .error (.badDestination (String.ofList destination) shown)
      | some target => .ok (.compute target function condition)

/-! ## The two passes -/

/-- Collects the labels of the lines, where `address` instructions came before them and `labels`
were declared already. -/
def collectLabels (address : Nat) (labels : Symbols) : List (List Char) → Except LoadError Symbols
  | [] => .ok labels
  | line :: rest =>
    match labelOf? line with
    | some name =>
      match labels.lookup name with
      | some _ => .error (.duplicateLabel name)
      | none => collectLabels address (labels ++ [(name, address)]) rest
    | none => collectLabels (address + 1) labels rest

/-- The address that a symbol means and the variables after its use: a symbol with no other
meaning becomes a variable. -/
def resolve (labels allocated : Symbols) (name : String) : Nat × Symbols :=
  match (labels.lookup name).or ((predefined.lookup name).or (allocated.lookup name)) with
  | some address => (address, allocated)
  | none =>
    let address := variableBase + allocated.length
    (address, allocated ++ [(name, address)])

/-- A text of digit signs only. -/
def isNumberText (text : List Char) : Bool :=
  !text.isEmpty && text.all Text.isDigitLike

/-- Reads one instruction and the variables after it. -/
def readInstruction (labels allocated : Symbols) (line : List Char) :
    Except LoadError (Instruction × Symbols) :=
  match line with
  | '@' :: operand =>
    if isNumberText operand then
      match Text.readInt 10 (String.ofList operand) with
      | .ok value => .ok (.load value.toNat, allocated)
      | .error error => .error (.number error)
    else
      let (address, allocated) := resolve labels allocated (String.ofList operand)
      .ok (.load address, allocated)
  | _ => (readCompute line).map fun instruction => (instruction, allocated)

/-- Reads the instructions of the lines, after the instructions `rom` and with the variables used
so far. -/
def assemble (labels allocated : Symbols) (rom : Array Instruction) :
    List (List Char) → Except LoadError (Array Instruction × Symbols)
  | [] => .ok (rom, allocated)
  | line :: rest =>
    if (labelOf? line).isSome then
      assemble labels allocated rom rest
    else
      match readInstruction labels allocated line with
      | .error error => .error error
      | .ok (instruction, allocated) => assemble labels allocated (rom.push instruction) rest

/-- Loads an assembly text. -/
def Image.load (text : String) : Except LoadError Image := do
  let lines := significantLines text
  let labels ← collectLabels 0 [] lines
  let (rom, allocated) ← assemble labels [] #[] lines
  return ⟨rom, labels, allocated⟩

end HackVm.Hack
