import HackVm.Text.Comment
import HackVm.Vm.Command

/-!
# Source lines

A line holds at most one command.  Everything from the first `//` on is a comment, blanks around
the rest do not count, and a line with nothing left is insignificant.  The words of the rest are
classified by the first one.

`readLine` gives the command of a line, nothing for an insignificant line, or a fault: a flaw in
the shape of the command, or a number beyond the digit limit.  `Malformed` is a flaw with the
place where it was found.
-/

namespace HackVm

/-- What is wrong with the words of a line. -/
inductive Flaw where
  /-- An operator is followed by other words, `token` first. -/
  | operands (operator token : String)
  /-- The first word names no command. -/
  | unknownWord (word : String)
  /-- The first word has the wrong number of words after it. -/
  | wrongCount (word : String) (expected got : Nat)
  /-- A natural number was expected. -/
  | notNatural (token : String)
  deriving DecidableEq, Repr

namespace Flaw

/-- The word that a flaw is blamed on. -/
def token : Flaw → String
  | .operands _ token => token
  | .unknownWord word => word
  | .wrongCount word _ _ => word
  | .notNatural token => token

/-- The wording of a flaw. -/
def message : Flaw → String
  | .operands operator _ => Text.quoted operator ++ " takes no arguments"
  | .unknownWord word => "unknown command " ++ Text.quoted word
  | .wrongCount word expected got =>
    Text.quoted word ++ " expects " ++ Text.natural expected ++ " argument(s), got " ++
      Text.natural got
  | .notNatural token => Text.quoted token ++ " is not a non-negative integer"

end Flaw

/-- Why a line gives no command. -/
inductive LineFault where
  | flaw (flaw : Flaw)
  | number (error : Text.NumberError)
  deriving DecidableEq, Repr

namespace Line

/-- A line without its comment and without blanks at its ends. -/
def significant (line : String) : String :=
  String.ofList (Text.significantPart line.toList)

/-- A line that holds something besides blanks and a comment. -/
def isSignificant (line : String) : Bool :=
  !(Text.significantPart line.toList).isEmpty

/-- The words of a line, its comment left out. -/
def words (line : String) : List String :=
  (Text.words (Text.significantPart line.toList)).map String.ofList

/-- A natural number in decimal digits of any script, without sign or underscore. -/
def readNaturalWord (word : String) : Except LineFault Int :=
  if !word.isEmpty && word.toList.all Text.isDecimalDigit then
    (Text.readInt 10 word).mapError .number
  else
    .error (.flaw (.notNatural word))

/-- The command with first word `word` and one name after it. -/
def withName (word : String) (build : String → Command) : List String → Except LineFault Command
  | [name] => .ok (build name)
  | operands => .error (.flaw (.wrongCount word 1 operands.length))

/-- The command with first word `word` and a name and a number after it. -/
def withNameAndNumber (word : String) (build : String → Int → Command) :
    List String → Except LineFault Command
  | [name, number] => (readNaturalWord number).map (build name)
  | operands => .error (.flaw (.wrongCount word 2 operands.length))

/-- The command with first word `word` and the words after it. -/
def command (word : String) (operands : List String) : Except LineFault Command :=
  match Operator.ofWord? word, operands with
  | some _, [] => .ok (.arithmetic word)
  | some _, token :: _ => .error (.flaw (.operands word token))
  | none, operands =>
    match Kind.ofWord? word with
    | some .push => withNameAndNumber word .push operands
    | some .pop => withNameAndNumber word .pop operands
    | some .label => withName word .label operands
    | some .goto => withName word .goto operands
    | some .ifGoto => withName word .ifGoto operands
    | some .function => withNameAndNumber word .function operands
    | some .call => withNameAndNumber word .call operands
    | some .ret =>
      match operands with
      | [] => .ok .ret
      | _ :: _ => .error (.flaw (.wrongCount word 0 operands.length))
    | some .arithmetic => .error (.flaw (.unknownWord word))
    | none => .error (.flaw (.unknownWord word))

/-- The command of a line, or nothing when the line is insignificant. -/
def read (line : String) : Except LineFault (Option Command) :=
  match words line with
  | [] => .ok none
  | word :: operands => (command word operands).map some

/-- A line without the line feeds at its end. -/
def withoutFeeds (line : String) : String :=
  String.ofList (line.toList.reverse.dropWhile (· == '\n')).reverse

end Line

/-- A flaw with its place: the source, the number of the line and the line itself. -/
structure Malformed where
  flaw : Flaw
  source : String
  number : Int
  line : String
  deriving DecidableEq, Repr

/-- The wording of a flaw in its place.  A source without a name is called `<input>`. -/
def Malformed.message (m : Malformed) : String :=
  let source := if m.source.isEmpty then "<input>" else m.source
  "Malformed command at " ++ source ++ ":" ++ Text.decimal m.number ++ ": " ++ m.flaw.message ++
    " (line = " ++ Text.quoted m.line ++ ")"

/-- Why a line of a source gives no command. -/
inductive LineError where
  | malformed (error : Malformed)
  | number (error : Text.NumberError)
  deriving DecidableEq, Repr

/-- Puts a fault in its place. -/
def LineFault.at (fault : LineFault) (source : String) (number : Int) (line : String) : LineError :=
  match fault with
  | .flaw problem => .malformed ⟨problem, source, number, Line.withoutFeeds line⟩
  | .number error => .number error

/-- The command of line `number` of a source, or nothing when the line is insignificant. -/
def readLine (source : String) (number : Int) (line : String) :
    Except LineError (Option Command) :=
  (Line.read line).mapError (·.at source number line)

/-- The commands of the lines from line `number` on, with their line numbers, up to the first
fault. -/
def readLines (source : String) (number : Nat) :
    List String → List (Nat × Command) × Option LineError
  | [] => ([], none)
  | line :: rest =>
    match readLine source number line with
    | .error error => ([], some error)
    | .ok none => readLines source (number + 1) rest
    | .ok (some command) =>
      let (commands, error) := readLines source (number + 1) rest
      ((number, command) :: commands, error)

end HackVm
