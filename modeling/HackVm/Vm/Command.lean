import HackVm.Text.Numeral

/-!
# Commands of the stack machine

A command is one of nine kinds.  The operator of an arithmetic command, the segment of a memory
command and the names of the others are kept as the words that were written: whether an operator
or a segment exists is decided where code is emitted for it.

`Command.text` is the command in source form.  `Command.render` is the same within the digit
limit, and `Command.ofFields` builds a command from a kind and two optional operands.
-/

namespace HackVm

/-- The operators of arithmetic commands. -/
inductive Operator where
  | add | sub | neg | eq | gt | lt | and | or | not
  deriving DecidableEq, Repr

namespace Operator

/-- All operators, in their customary order. -/
def all : List Operator := [.add, .sub, .neg, .eq, .gt, .lt, .and, .or, .not]

/-- The word that names an operator. -/
def word : Operator → String
  | .add => "add"
  | .sub => "sub"
  | .neg => "neg"
  | .eq => "eq"
  | .gt => "gt"
  | .lt => "lt"
  | .and => "and"
  | .or => "or"
  | .not => "not"

/-- The operator that a word names. -/
def ofWord? (word : String) : Option Operator :=
  all.find? (·.word == word)

theorem mem_all (op : Operator) : op ∈ all := by
  cases op <;> simp [all]

@[simp] theorem ofWord?_word (op : Operator) : ofWord? op.word = some op := by
  cases op <;> decide

end Operator

/-- The memory segments. -/
inductive Segment where
  | constant | locals | argument | this | that | pointer | temp | static
  deriving DecidableEq, Repr

namespace Segment

/-- All segments, in their customary order. -/
def all : List Segment :=
  [.constant, .locals, .argument, .this, .that, .pointer, .temp, .static]

/-- The word that names a segment. -/
def word : Segment → String
  | .constant => "constant"
  | .locals => "local"
  | .argument => "argument"
  | .this => "this"
  | .that => "that"
  | .pointer => "pointer"
  | .temp => "temp"
  | .static => "static"

/-- The segment that a word names. -/
def ofWord? (word : String) : Option Segment :=
  all.find? (·.word == word)

theorem mem_all (segment : Segment) : segment ∈ all := by
  cases segment <;> simp [all]

@[simp] theorem ofWord?_word (segment : Segment) : ofWord? segment.word = some segment := by
  cases segment <;> decide

end Segment

/-- The kinds of commands. -/
inductive Kind where
  | arithmetic | push | pop | label | goto | ifGoto | function | call | ret
  deriving DecidableEq, Repr

namespace Kind

/-- All kinds, in their customary order. -/
def all : List Kind :=
  [.arithmetic, .push, .pop, .label, .goto, .ifGoto, .function, .call, .ret]

/-- The word that names a kind.  All but `arithmetic` are also the first word of a command of that
kind. -/
def word : Kind → String
  | .arithmetic => "arithmetic"
  | .push => "push"
  | .pop => "pop"
  | .label => "label"
  | .goto => "goto"
  | .ifGoto => "if-goto"
  | .function => "function"
  | .call => "call"
  | .ret => "return"

/-- The kind that a word names. -/
def ofWord? (word : String) : Option Kind :=
  all.find? (·.word == word)

theorem mem_all (kind : Kind) : kind ∈ all := by
  cases kind <;> simp [all]

@[simp] theorem ofWord?_word (kind : Kind) : ofWord? kind.word = some kind := by
  cases kind <;> decide

end Kind

/-- One command of the stack machine. -/
inductive Command where
  /-- Applies an operator to the top of the stack. -/
  | arithmetic (operator : String)
  /-- Pushes a cell of a segment. -/
  | push (segment : String) (index : Int)
  /-- Pops the top of the stack into a cell of a segment. -/
  | pop (segment : String) (index : Int)
  /-- Declares a place to jump to. -/
  | label (name : String)
  /-- Jumps. -/
  | goto (name : String)
  /-- Pops the top of the stack and jumps if it is not zero. -/
  | ifGoto (name : String)
  /-- Begins a function with a number of local variables. -/
  | function (name : String) (locals : Int)
  /-- Calls a function with a number of arguments from the stack. -/
  | call (name : String) (arguments : Int)
  /-- Returns to the caller. -/
  | ret
  deriving DecidableEq, Repr

/-- Why a kind and two optional operands are no command. -/
inductive ShapeError where
  /-- Operand number `operand` is needed and missing. -/
  | missing (kind : Kind) (operand : Nat)
  /-- Operand number `operand` is present and not wanted. -/
  | unwanted (kind : Kind) (operand : Nat)
  deriving DecidableEq, Repr

/-- The wording of a shape error. -/
def ShapeError.message : ShapeError → String
  | .missing kind operand => kind.word ++ " command requires arg" ++ Text.natural operand
  | .unwanted kind operand => kind.word ++ " command takes no arg" ++ Text.natural operand

namespace Command

/-- The kind of a command. -/
def kind : Command → Kind
  | .arithmetic _ => .arithmetic
  | .push _ _ => .push
  | .pop _ _ => .pop
  | .label _ => .label
  | .goto _ => .goto
  | .ifGoto _ => .ifGoto
  | .function _ _ => .function
  | .call _ _ => .call
  | .ret => .ret

/-- The operator, segment or name of a command. -/
def word? : Command → Option String
  | .arithmetic operator => some operator
  | .push segment _ => some segment
  | .pop segment _ => some segment
  | .label name => some name
  | .goto name => some name
  | .ifGoto name => some name
  | .function name _ => some name
  | .call name _ => some name
  | .ret => none

/-- The index or count of a command. -/
def number? : Command → Option Int
  | .push _ index => some index
  | .pop _ index => some index
  | .function _ locals => some locals
  | .call _ arguments => some arguments
  | _ => none

/-- A word without a number, for the kinds that want exactly that. -/
def ofWordOnly (kind : Kind) (build : String → Command) (word : Option String)
    (number : Option Int) : Except ShapeError Command :=
  match word, number with
  | none, _ => .error (.missing kind 1)
  | some _, some _ => .error (.unwanted kind 2)
  | some word, none => .ok (build word)

/-- A word and a number, for the kinds that want both. -/
def ofWordAndNumber (kind : Kind) (build : String → Int → Command) (word : Option String)
    (number : Option Int) : Except ShapeError Command :=
  match word, number with
  | none, _ => .error (.missing kind 1)
  | some _, none => .error (.missing kind 2)
  | some word, some number => .ok (build word number)

/-- The command of a kind with the given operands.  The first operand is checked before the
second. -/
def ofFields (kind : Kind) (word : Option String) (number : Option Int) :
    Except ShapeError Command :=
  match kind with
  | .arithmetic => ofWordOnly kind .arithmetic word number
  | .push => ofWordAndNumber kind .push word number
  | .pop => ofWordAndNumber kind .pop word number
  | .label => ofWordOnly kind .label word number
  | .goto => ofWordOnly kind .goto word number
  | .ifGoto => ofWordOnly kind .ifGoto word number
  | .function => ofWordAndNumber kind .function word number
  | .call => ofWordAndNumber kind .call word number
  | .ret =>
    match word, number with
    | some _, _ => .error (.unwanted kind 1)
    | none, some _ => .error (.unwanted kind 2)
    | none, none => .ok .ret

/-- A command is built from its own fields. -/
theorem ofFields_fields (command : Command) :
    ofFields command.kind command.word? command.number? = .ok command := by
  cases command <;> rfl

/-- A command in source form. -/
def text : Command → String
  | .arithmetic operator => operator
  | .push segment index => "push " ++ segment ++ " " ++ Text.decimal index
  | .pop segment index => "pop " ++ segment ++ " " ++ Text.decimal index
  | .label name => "label " ++ name
  | .goto name => "goto " ++ name
  | .ifGoto name => "if-goto " ++ name
  | .function name locals => "function " ++ name ++ " " ++ Text.decimal locals
  | .call name arguments => "call " ++ name ++ " " ++ Text.decimal arguments
  | .ret => "return"

/-- The number of a command is within the digit limit. -/
def isWritable (command : Command) : Bool :=
  command.number?.all Text.isWritable

/-- A command in source form, if its number is within the digit limit. -/
def render (command : Command) : Except Text.NumberError String :=
  if command.isWritable then .ok command.text else .error .tooLong

end Command

end HackVm
