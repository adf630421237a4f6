import HackVm.Emit.Block

/-!
# Emission sessions

A session remembers what code for later commands depends on: how many comparisons and calls were
emitted, the current source and the current function.  `Session.emit` gives the statements of a
command.  A command that no code exists for is refused, and the session stays as it was.

A number beyond the digit limit cannot be written.  Annotations are written before anything else;
after them, a call has taken its serial number before its own numbers are written, so a call that
fails to be written still counts.
-/

namespace HackVm.Emit

open Hack

/-- The state of an emission. -/
structure Session where
  /-- Each block starts with a comment that shows its command. -/
  annotate : Bool
  /-- The first cell of the stack. -/
  stackBase : Int
  /-- The number of comparisons so far. -/
  comparisons : Nat
  /-- The number of calls so far. -/
  calls : Nat
  /-- The current source. -/
  source : Option String
  /-- The current function. -/
  function : Option String
  deriving DecidableEq, Repr

/-- Why no code exists for a command. -/
inductive Reason where
  | unknownOperator (word : String)
  | unknownSegment (word : String)
  | popConstant
  | pointerIndex (index : Int)
  | noSource
  deriving DecidableEq, Repr

/-- The wording of a reason. -/
def Reason.message : Reason → String
  | .unknownOperator word => "unknown arithmetic operator " ++ Text.quoted word
  | .unknownSegment word => "unknown memory segment " ++ Text.quoted word
  | .popConstant => "cannot pop into the constant segment"
  | .pointerIndex index => "pointer index must be 0 or 1, got " ++ Text.decimal index
  | .noSource => "static access with no source name set"

/-- The word that a reason is blamed on. -/
def Reason.token : Reason → String
  | .unknownOperator word => word
  | .unknownSegment word => word
  | .popConstant => Segment.constant.word
  | .pointerIndex index => Text.decimal index
  | .noSource => Segment.static.word

/-- A refused command, with the name of the source that was current, empty when there was none. -/
structure Refusal where
  reason : Reason
  command : Command
  source : String
  deriving DecidableEq, Repr

/-- The wording of a refusal. -/
def Refusal.message (refusal : Refusal) : String :=
  let place := if refusal.source.isEmpty then "" else " in " ++ refusal.source
  "Unsupported operation" ++ place ++ ": " ++ refusal.reason.message ++ " (" ++
    refusal.command.text ++ ")"

/-- Why a session gives no statements. -/
inductive EmitError where
  | refused (refusal : Refusal)
  | number (error : Text.NumberError)
  deriving DecidableEq, Repr

namespace Session

/-- A session before its first command. -/
def fresh (annotate : Bool) (stackBase : Int) : Session where
  annotate := annotate
  stackBase := stackBase
  comparisons := 0
  calls := 0
  source := none
  function := none

/-- Starts over with the same settings. -/
def reset (session : Session) : Session :=
  fresh session.annotate session.stackBase

/-- Goes on with another source. -/
def openSource (session : Session) (name : String) : Session :=
  { session with source := some name }

/-- The label of the next call's return.  Outside every function the caller is called
`Bootstrap`. -/
def nextReturn (session : Session) : Symbol :=
  let function := (session.function.filter (!·.isEmpty)).getD "Bootstrap"
  .returnOf function session.calls

/-! ## Operands -/

/-- The location of a cell of a segment. -/
def locate (session : Session) (segment : Segment) (index : Int) : Except Reason Location :=
  match segment with
  | .constant => .ok (.constant index)
  | .locals => .ok (.indirect .lcl index)
  | .argument => .ok (.indirect .arg index)
  | .this => .ok (.indirect .this index)
  | .that => .ok (.indirect .that index)
  | .temp => .ok (.direct (.number (tempBase + index)))
  | .pointer =>
    if index = 0 then .ok (.direct (.register .this))
    else if index = 1 then .ok (.direct (.register .that))
    else .error (.pointerIndex index)
  | .static =>
    match session.source.filter (!·.isEmpty) with
    | some source => .ok (.direct (.static source index))
    | none => .error .noSource

/-- The location of a cell of the segment that a word names. -/
def locateWord (session : Session) (word : String) (index : Int) : Except Reason Location :=
  match Segment.ofWord? word with
  | some segment => session.locate segment index
  | none => .error (.unknownSegment word)

/-! ## Blocks -/

/-- A comparison takes the next serial number, counted from one. -/
def compare (session : Session) (comparison : Comparison) : Session × List Statement :=
  let serial := session.comparisons + 1
  ({ session with comparisons := serial }, comparisonBlock comparison serial)

/-- The block of an operator. -/
def operate (session : Session) : Operator → Session × List Statement
  | .add => (session, binaryBlock (.sum .m))
  | .sub => (session, binaryBlock (.minusD .m))
  | .and => (session, binaryBlock (.and .m))
  | .or => (session, binaryBlock (.or .m))
  | .neg => (session, unaryBlock (.negOperand .m))
  | .not => (session, unaryBlock (.notOperand .m))
  | .eq => session.compare .eq
  | .gt => session.compare .gt
  | .lt => session.compare .lt

/-- A call takes the next serial number, counted from zero. -/
def call (session : Session) (function : String) (arguments : Int) : Session × List Statement :=
  ({ session with calls := session.calls + 1 }, callBlock function arguments session.nextReturn)

/-- The block of a command and the session after it, or the reason why there is none. -/
def block (session : Session) (command : Command) : Except Reason (Session × List Statement) :=
  match command with
  | .arithmetic word =>
    match Operator.ofWord? word with
    | some operator => .ok (session.operate operator)
    | none => .error (.unknownOperator word)
  | .push word index =>
    match session.locateWord word index with
    | .ok location => .ok (session, pushBlock location)
    | .error reason => .error reason
  | .pop word index =>
    match session.locateWord word index with
    | .ok location =>
      match popBlock? location with
      | some statements => .ok (session, statements)
      | none => .error .popConstant
    | .error reason => .error reason
  | .label name => .ok (session, labelBlock name)
  | .goto name => .ok (session, gotoBlock name)
  | .ifGoto name => .ok (session, ifGotoBlock name)
  | .function name locals =>
    .ok ({ session with function := some name }, functionBlock name locals)
  | .call name arguments => .ok (session.call name arguments)
  | .ret => .ok (session, returnBlock)

/-! ## Emission -/

/-- The comment that a session puts before a block. -/
def annotation (session : Session) (text : String) : List Statement :=
  if session.annotate then [.comment text] else []

/-- That is one comment or nothing. -/
theorem annotation_cases (session : Session) (text : String) :
    session.annotation text = [.comment text] ∨ session.annotation text = [] := by
  unfold annotation
  split
  · exact .inl rfl
  · exact .inr rfl

/-- Refuses a command.  The refusal shows the command, whose number has to be within the digit
limit. -/
def refuse (session : Session) (command : Command) (reason : Reason) : EmitError :=
  if command.isWritable then .refused ⟨reason, command, session.source.getD ""⟩
  else .number .tooLong

/-- Statements that are within the digit limit. -/
def checked (statements : List Statement) : Except EmitError (List Statement) :=
  if statements.all Statement.isWritable then .ok statements else .error (.number .tooLong)

/-- Emits one command: the session after it, and its statements or the error. -/
def emit (session : Session) (command : Command) :
    Session × Except EmitError (List Statement) :=
  if session.annotate && !command.isWritable then
    (session, .error (.number .tooLong))
  else
    match session.block command with
    | .error reason => (session, .error (session.refuse command reason))
    | .ok (next, statements) => (next, checked (session.annotation command.text ++ statements))

/-- Emits the start of a program.  The stack base is written before the call takes its serial
number. -/
def bootstrap (session : Session) : Session × Except EmitError (List Statement) :=
  if Text.isWritable session.stackBase then
    ({ session with calls := session.calls + 1 },
      .ok (session.annotation "bootstrap" ++
        bootstrapBlock session.stackBase session.nextReturn))
  else
    (session, .error (.number .tooLong))

end Session

end HackVm.Emit
