import HackVm.Index
import HackVm.Vm.Line

/-!
# A cursor over the commands of a source

A cursor walks the significant lines of one source.  It can be asked whether a significant line is
left, advanced to the next command, and put back to the start.  `Readers` are any number of
consumers that pull from the same cursor: a reader that has met the end or a fault stays finished,
even after the cursor was put back.

A line with a fault is passed by the cursor, but the current command and its line number stay those
of the last command delivered.
-/

namespace HackVm

/-- A position in a source. -/
structure Cursor where
  /-- The name of the source. -/
  source : String
  /-- All lines of the source. -/
  lines : List String
  /-- The lines that are still ahead. -/
  ahead : List String
  /-- The number of lines that were passed. -/
  passed : Nat
  /-- The last command delivered. -/
  current : Option Command
  /-- The line number of the last command delivered, zero when there is none. -/
  lineNumber : Nat
  deriving DecidableEq, Repr

/-- What a cursor delivers. -/
inductive Delivery where
  | command (command : Command)
  | failed (error : LineError)
  | ended
  deriving DecidableEq, Repr

namespace Cursor

/-- A cursor at the start of a source. -/
def ofLines (source : String) (lines : List String) : Cursor where
  source := source
  lines := lines
  ahead := lines
  passed := 0
  current := none
  lineNumber := 0

/-- Puts the cursor back to the start of its source. -/
def restart (cursor : Cursor) : Cursor :=
  ofLines cursor.source cursor.lines

/-- Passes the insignificant lines ahead. -/
def skip (cursor : Cursor) : Cursor :=
  let blank := cursor.ahead.takeWhile (!Line.isSignificant ·)
  { cursor with ahead := cursor.ahead.drop blank.length, passed := cursor.passed + blank.length }

/-- Whether a significant line is ahead.  Looking for one passes the insignificant lines before
it. -/
def hasMore (cursor : Cursor) : Cursor × Bool :=
  let start := cursor.skip
  (start, !start.ahead.isEmpty)

/-- Moves past the next significant line and delivers its command. -/
def advance (cursor : Cursor) : Cursor × Delivery :=
  let start := cursor.skip
  match start.ahead with
  | [] => (start, .ended)
  | line :: rest =>
    let number := start.passed + 1
    let moved := { start with ahead := rest, passed := number }
    match readLine start.source number line with
    | .ok (some command) =>
      ({ moved with current := some command, lineNumber := number }, .command command)
    | .ok none => (moved, .ended)
    | .error error => (moved, .failed error)

theorem length_ahead_skip_le (cursor : Cursor) :
    cursor.skip.ahead.length ≤ cursor.ahead.length := by
  simp [skip]

/-- A delivered command was taken from the lines ahead. -/
theorem length_ahead_advance_lt {cursor next : Cursor} {command : Command}
    (h : cursor.advance = (next, .command command)) :
    next.ahead.length < cursor.ahead.length := by
  have hskip := cursor.length_ahead_skip_le
  unfold advance at h
  cases hahead : cursor.skip.ahead with
  | nil => simp [hahead] at h
  | cons line rest =>
    rw [hahead, List.length_cons] at hskip
    simp only [hahead] at h
    split at h <;> simp only [Prod.mk.injEq, reduceCtorEq, and_false] at h
    obtain ⟨rfl, -⟩ := h
    exact hskip

/-- Delivers commands until the end or a fault: the cursor left behind, the commands, and the
fault if there was one. -/
def drain (cursor : Cursor) : Cursor × List Command × Option LineError :=
  match _h : cursor.advance with
  | (next, .command command) =>
    let rest := drain next
    (rest.1, command :: rest.2.1, rest.2.2)
  | (next, .failed error) => (next, [], some error)
  | (next, .ended) => (next, [], none)
termination_by cursor.ahead.length
decreasing_by exact length_ahead_advance_lt ‹_›

end Cursor

/-- Consumers of one cursor, each marked whether it has finished. -/
structure Readers where
  cursor : Cursor
  finished : List Bool
  deriving DecidableEq, Repr

namespace Readers

/-- A cursor without readers. -/
def ofCursor (cursor : Cursor) : Readers :=
  ⟨cursor, []⟩

/-- Adds a reader, numbered from zero in order. -/
def add (readers : Readers) : Readers :=
  { readers with finished := readers.finished ++ [false] }

/-- Asks the reader at an index for the next command. -/
def next (readers : Readers) (index : Int) : Readers × Except Index.Fault Delivery :=
  match Index.place? readers.finished.length index with
  | none => (readers, .error ⟨.read, index⟩)
  | some place =>
    if readers.finished[place] then
      (readers, .ok .ended)
    else
      match readers.cursor.advance with
      | (cursor, .command command) => ({ readers with cursor }, .ok (.command command))
      | (cursor, delivery) =>
        ({ readers with cursor, finished := readers.finished.set place true }, .ok delivery)

end Readers

end HackVm
