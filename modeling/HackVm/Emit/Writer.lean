import HackVm.Emit.Session

/-!
# Writing blocks piece by piece

A writer is a session with the lines of the block at hand.  It begins every block without lines,
adds them piece by piece, and gives them away as text when the block is complete.

A block that fails stays begun: its comment, and the pieces of a call before the one with a number
beyond the digit limit, remain among the lines until the next block begins.
-/

namespace HackVm.Emit

/-- A session at work. -/
structure Writer where
  /-- What later commands depend on. -/
  session : Session
  /-- The lines of the block at hand, or what is left of one that failed. -/
  lines : List Statement
  deriving DecidableEq, Repr

/-- The pieces in which a call is written.  Only the one that finds the arguments has a number. -/
def callPieces (function : String) (arguments : Int) (back : Symbol) : List (List Statement) :=
  (fetchAddress back ++ pushD) ::
    savedRegisters.map (fun register => fetch (.register register) ++ pushD) ++
    [fetch (.register .sp) ++ [atNumber (frameSize + arguments), assign intoD (.dMinus .a)] ++
        store (.register .arg),
      fetch (.register .sp) ++ store (.register .lcl),
      jumpTo (.name function) ++ [.declare back]]

/-- The pieces in which the block of a command is written.  Every block but that of a call has its
number in front and is written in one piece. -/
def Session.pieces (session : Session) (command : Command) (block : List Statement) :
    List (List Statement) :=
  match command with
  | .call function arguments => callPieces function arguments session.nextReturn
  | _ => [block]

namespace Writer

/-- A writer before its first command. -/
def fresh (annotate : Bool) (stackBase : Int) : Writer :=
  ⟨.fresh annotate stackBase, []⟩

/-- Begins a block. -/
def begun (writer : Writer) : Writer :=
  { writer with lines := [] }

/-- Adds a piece to the block, whole or, with a number beyond the digit limit, not at all. -/
def write (writer : Writer) (piece : List Statement) : Writer × Except EmitError Unit :=
  if piece.all Statement.isWritable then
    ({ writer with lines := writer.lines ++ piece }, .ok ())
  else
    (writer, .error (.number .tooLong))

/-- Adds pieces in order, up to the first that cannot be written. -/
def writeAll (writer : Writer) : List (List Statement) → Writer × Except EmitError Unit
  | [] => (writer, .ok ())
  | piece :: rest =>
    match writer.write piece with
    | (next, .error error) => (next, .error error)
    | (next, .ok ()) => next.writeAll rest

/-- Adds the last pieces of a block and gives it away. -/
def finish (writer : Writer) (pieces : List (List Statement)) :
    Writer × Except EmitError String :=
  match writer.writeAll pieces with
  | (next, .error error) => (next, .error error)
  | (next, .ok ()) => (next.begun, .ok (assembly next.lines))

/-- Begins a block with the comment that the session puts there. -/
def annotated (writer : Writer) (text : String) : Writer :=
  { writer with lines := writer.session.annotation text }

/-- Writes one command: the writer after it, and the text or the error.  The comment comes first,
then the command is accepted or refused, and then its block is written. -/
def translate (writer : Writer) (command : Command) : Writer × Except EmitError String :=
  if writer.session.annotate && !command.isWritable then
    (writer.begun, .error (.number .tooLong))
  else
    let commented := writer.annotated command.text
    match commented.session.block command with
    | .error reason => (commented, .error (commented.session.refuse command reason))
    | .ok (next, block) =>
      { commented with session := next }.finish (commented.session.pieces command block)

/-- Writes the start of a program.  The stack base is written before the call takes its serial
number. -/
def bootstrap (writer : Writer) : Writer × Except EmitError String :=
  let commented := writer.annotated "bootstrap"
  let base := fetchAddress (.number writer.session.stackBase) ++ store (.register .sp)
  match commented.write base with
  | (failed, .error error) => (failed, .error error)
  | (based, .ok ()) =>
    let counted := { based.session with calls := based.session.calls + 1 }
    { based with session := counted }.finish
      (callPieces entryFunction 0 based.session.nextReturn)

end Writer

end HackVm.Emit
