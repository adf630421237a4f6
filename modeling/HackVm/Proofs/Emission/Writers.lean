import HackVm.Emit.Writer
import HackVm.Proofs.Emission.Freshness
import Mathlib.Algebra.Group.Nat.Defs

/-!
# A writer gives what its session gives

A session keeps none of the statements that it emits.  A writer does: it holds the lines of the
block at hand, and a command that fails in the middle of its block leaves some of them behind.

```text
command                          lines left over
accepted                         none
refused                          the comment, if there are comments
a number beyond the limit        the comment, and the pieces before the number
```

What is left over never shows.  Every block begins without lines, so a writer treats a command as
its session does (`translate_eq`), and so it is with every sequence of uses (`outputs_eq`).
-/

namespace HackVm

open Emit

/-! ## Uses -/

/-- The operation leaves the settings of a session as they are. -/
def Emit.Operation.keepsSettings : Operation → Bool
  | .setAnnotate _ => false
  | .setStackBase _ => false
  | _ => true

/-- What a session is used for. -/
inductive Use where
  /-- Carries out an operation. -/
  | perform (operation : Operation)
  /-- Starts over. -/
  | reset
  deriving DecidableEq, Repr

def Use.keepsSettings : Use → Bool
  | .perform operation => operation.keepsSettings
  | .reset => true

namespace Emit

namespace Session

/-- One use: the session after it, and the text or the error that it gives. -/
def use (session : Session) : Use → Session × Except EmitError String
  | .perform operation =>
    ((session.perform operation).1, (session.perform operation).2.map assembly)
  | .reset => (session.reset, .ok "")

/-- The session after a sequence of uses. -/
def after (session : Session) : List Use → Session
  | [] => session
  | use :: rest => (session.use use).1.after rest

/-- What each of a sequence of uses gives, and the session that it leaves. -/
def outputs (session : Session) : List Use → List (Session × Except EmitError String)
  | [] => []
  | use :: rest => session.use use :: (session.use use).1.outputs rest

end Session

/-! ## Blocks within the digit limit -/

/-- A number one digit short of the limit can be written, also when five is added to it. -/
theorem isWritable_of_digits {number : Int}
    (hdigits : number.natAbs < 10 ^ (Text.maxDigits - 1)) :
    Text.isWritable number = true ∧ Text.isWritable (5 + number) = true := by
  have hpos : 1 ≤ Text.maxDigits := by decide
  unfold Text.isWritable
  generalize Text.maxDigits = limit at hdigits hpos ⊢
  obtain ⟨shorter, rfl⟩ := Nat.exists_eq_add_of_le' hpos
  have hlimit : Nat.pow 10 (shorter + 1) = 10 ^ shorter * 10 := Nat.pow_succ 10 shorter
  have hbound : 0 < 10 ^ shorter := Nat.pow_pos (by decide)
  rw [Nat.add_sub_cancel] at hdigits
  rw [hlimit, decide_eq_true_iff, decide_eq_true_iff]
  constructor <;> omega

/-- The numbers in the code for a cell are its index, or the index counted from the cells of
`temp`. -/
private theorem isWritable_of_locates {session : Session} {segment : Segment} {index : Int}
    {location : Location} (h : session.Locates segment index location)
    (hindex : Text.isWritable index = true) (htemp : Text.isWritable (5 + index) = true) :
    (pushBlock location).all Statement.isWritable = true ∧
      ∀ block ∈ popBlock? location, block.all Statement.isWritable = true := by
  have hcell : ∀ symbol : Symbol, symbol.isWritable = true →
      (pushBlock (.direct symbol)).all Statement.isWritable = true ∧
        ∀ block ∈ popBlock? (.direct symbol), block.all Statement.isWritable = true := by
    intro symbol hsymbol
    have hpointer : (Symbol.register .sp).isWritable = true := rfl
    simp [pushBlock, popBlock?, fetch, store, pushD, popD, atRegister, assign,
      Statement.isWritable, hpointer, hsymbol]
  have hbased : ∀ register,
      (pushBlock (.indirect register index)).all Statement.isWritable = true ∧
        ∀ block ∈ popBlock? (.indirect register index),
          block.all Statement.isWritable = true := by
    intro register
    simp [pushBlock, popBlock?, fetchAddress, store, pushD, popD, atRegister, assign,
      Statement.isWritable, Symbol.isWritable, hindex]
  cases h with
  | constant =>
      simp [pushBlock, popBlock?, fetchAddress, pushD, atRegister, assign,
        Statement.isWritable, Symbol.isWritable, hindex]
  | temp => exact hcell _ htemp
  | pointerThis => exact hcell _ rfl
  | pointerThat => exact hcell _ rfl
  | static => exact hcell _ hindex
  | _ => exact hbased _

private theorem isWritable_comparisonBlock (comparison : Comparison) (serial : Nat) :
    (comparisonBlock comparison serial).all Statement.isWritable = true := by
  unfold comparisonBlock signedDifference
  cases comparison <;>
    simp [difference, popD, atTop, store, fetch, jumpTo, jumpWhen, atRegister, assign, jumpIf,
      Statement.isWritable, Symbol.isWritable]

private theorem isWritable_functionBlock (name : String) (locals : Int) :
    (functionBlock name locals).all Statement.isWritable = true := by
  have hzero : pushZero.all Statement.isWritable = true := rfl
  rw [functionBlock, List.all_cons, List.all_flatten, Bool.and_eq_true]
  refine ⟨rfl, List.all_eq_true.mpr fun block hblock => ?_⟩
  rw [List.eq_of_mem_replicate hblock]
  exact hzero

/-- A block can be written if the number of its command is short enough. -/
theorem isWritable_block {session next : Session} {command : Command} {body : List Statement}
    (h : session.block command = .ok (next, body))
    (hdigits : ∀ number ∈ command.number?, number.natAbs < 10 ^ (Text.maxDigits - 1)) :
    body.all Statement.isWritable = true := by
  cases block_eq_ok_iff.mp h with
  | @operate word operator _ =>
      cases operator with
      | eq => exact isWritable_comparisonBlock _ _
      | gt => exact isWritable_comparisonBlock _ _
      | lt => exact isWritable_comparisonBlock _ _
      | _ => rfl
  | @push word segment index location _ hlocates =>
      obtain ⟨hindex, htemp⟩ := isWritable_of_digits (hdigits index rfl)
      exact (isWritable_of_locates hlocates hindex htemp).1
  | @pop word segment index location body _ hlocates hbody =>
      obtain ⟨hindex, htemp⟩ := isWritable_of_digits (hdigits index rfl)
      exact (isWritable_of_locates hlocates hindex htemp).2 body hbody
  | function name locals => exact isWritable_functionBlock name locals
  | call name arguments =>
      have hsize : Text.isWritable (frameSize + arguments) = true :=
        (isWritable_of_digits (hdigits arguments rfl)).2
      simp [callBlock, savedRegisters, fetchAddress, fetch, store, pushD, jumpTo, atRegister,
        atNumber, assign, jumpIf, Session.nextReturn, Statement.isWritable, Symbol.isWritable,
        hsize]
  | ret =>
      have hnumber : ∀ distance : Int, distance.natAbs < 10 → Text.isWritable distance = true :=
        fun _ => Text.isWritable_of_lt
      have hframe := hnumber frameSize (by decide)
      simp [returnBlock, restore, fetch, store, popD, atRegister, atNumber, assign, jumpIf,
        Statement.isWritable, Symbol.isWritable, hframe, hnumber]
  | _ => rfl

/-! ## A writer and its session -/

theorem flatten_callPieces (function : String) (arguments : Int) (back : Symbol) :
    (callPieces function arguments back).flatten = callBlock function arguments back := by
  simp [callPieces, callBlock, savedRegisters]

/-- The pieces of a block are the block. -/
theorem flatten_pieces {session next : Session} {command : Command} {block : List Statement}
    (h : session.block command = .ok (next, block)) :
    (session.pieces command block).flatten = block := by
  cases block_eq_ok_iff.mp h with
  | call function arguments => exact flatten_callPieces function arguments session.nextReturn
  | _ => exact List.flatten_singleton

theorem checked_append_comment (session : Session) (text : String)
    (block : List Statement) :
    Session.checked (session.annotation text ++ block) =
      (Session.checked block).map (session.annotation text ++ ·) := by
  have hcomment : (session.annotation text).all Statement.isWritable = true := by
    rcases session.annotation_cases text with hcomment | hnone
    · simp [hcomment, Statement.isWritable]
    · simp [hnone]
  unfold Session.checked
  rw [List.all_append, hcomment, Bool.true_and]
  split <;> rfl

namespace Writer

/-- Pieces that can be written are added to the lines. -/
theorem writeAll_of_isWritable {pieces : List (List Statement)}
    (h : pieces.flatten.all Statement.isWritable = true) (writer : Writer) :
    writer.writeAll pieces =
      ({ writer with lines := writer.lines ++ pieces.flatten }, .ok ()) := by
  induction pieces generalizing writer with
  | nil => simp [writeAll]
  | cons piece rest ih =>
      rw [List.flatten_cons, List.all_append, Bool.and_eq_true] at h
      simp only [writeAll, write, h.1, if_true, ih h.2, List.flatten_cons, List.append_assoc]

/-- Otherwise some of them are, and nothing else changes. -/
theorem writeAll_of_not_isWritable {pieces : List (List Statement)}
    (h : pieces.flatten.all Statement.isWritable = false) (writer : Writer) :
    ∃ lines, writer.writeAll pieces = ({ writer with lines }, .error (.number .tooLong)) := by
  induction pieces generalizing writer with
  | nil => exact absurd h (by simp)
  | cons piece rest ih =>
      rw [List.flatten_cons, List.all_append] at h
      cases hpiece : piece.all Statement.isWritable with
      | false =>
          refine ⟨writer.lines, ?_⟩
          simp only [writeAll, write, hpiece, Bool.false_eq_true, if_false]
      | true =>
          rw [hpiece, Bool.true_and] at h
          simpa only [writeAll, write, hpiece, if_true] using ih h _

/-- A finished block is the lines before it and its pieces. -/
theorem finish_eq (writer : Writer) (pieces : List (List Statement)) :
    (writer.finish pieces).1.session = writer.session ∧
      (writer.finish pieces).2 =
        (Session.checked pieces.flatten).map fun block => assembly (writer.lines ++ block) := by
  cases hall : pieces.flatten.all Statement.isWritable with
  | true =>
      rw [finish, writeAll_of_isWritable hall, Session.checked, if_pos hall]
      exact ⟨rfl, rfl⟩
  | false =>
      obtain ⟨lines, hwrite⟩ := writeAll_of_not_isWritable hall writer
      rw [finish, hwrite, Session.checked, if_neg (by simp [hall])]
      exact ⟨rfl, rfl⟩

/-- A writer treats a command as its session does, whatever lines it has. -/
theorem translate_eq (writer : Writer) (command : Command) :
    (writer.translate command).1.session = (writer.session.emit command).1 ∧
      (writer.translate command).2 = (writer.session.emit command).2.map assembly := by
  unfold translate Session.emit
  split
  · exact ⟨rfl, rfl⟩
  · dsimp only [annotated]
    cases hblock : writer.session.block command with
    | error reason => exact ⟨rfl, rfl⟩
    | ok result =>
        obtain ⟨next, block⟩ := result
        dsimp only
        refine ⟨(finish_eq _ _).1, (finish_eq _ _).2.trans ?_⟩
        rw [flatten_pieces hblock, checked_append_comment]
        cases Session.checked block <;> rfl

/-- A writer begins a program as its session does. -/
theorem bootstrap_eq (writer : Writer) :
    writer.bootstrap.1.session = writer.session.bootstrap.1 ∧
      writer.bootstrap.2 = writer.session.bootstrap.2.map assembly := by
  have hbase : (fetchAddress (.number writer.session.stackBase) ++ store (.register .sp)).all
      Statement.isWritable = Text.isWritable writer.session.stackBase := by
    simp [fetchAddress, store, assign, Statement.isWritable, Symbol.isWritable]
  unfold bootstrap Session.bootstrap write
  dsimp only
  rw [hbase]
  cases hwritable : Text.isWritable writer.session.stackBase with
  | false => exact ⟨rfl, rfl⟩
  | true =>
      rw [if_pos rfl, if_pos rfl]
      dsimp only [annotated]
      have hblock : writer.session.block (.call entryFunction 0) =
          .ok (writer.session.call entryFunction 0) := rfl
      have hcall : (callBlock entryFunction 0 writer.session.nextReturn).all
          Statement.isWritable = true := by
        refine isWritable_block hblock fun number hnumber => ?_
        rw [← Option.some.inj hnumber]
        exact Nat.pow_pos (by decide)
      refine ⟨(finish_eq _ _).1, (finish_eq _ _).2.trans ?_⟩
      rw [flatten_callPieces, Session.checked, if_pos hcall]
      simp only [Except.map, bootstrapBlock, List.append_assoc]

/-! ## Sequences of uses -/

/-- One use of a writer.  Only commands and the start of a program touch the lines: what is left of
a block stays when the settings change or the session starts over. -/
def use (writer : Writer) : Use → Writer × Except EmitError String
  | .perform (.emit command) => writer.translate command
  | .perform .bootstrap => writer.bootstrap
  | other => ({ writer with session := (writer.session.use other).1 }, .ok "")

/-- The writer after a sequence of uses. -/
def after (writer : Writer) : List Use → Writer
  | [] => writer
  | use :: rest => (writer.use use).1.after rest

/-- What each of a sequence of uses gives, and the session that it leaves. -/
def outputs (writer : Writer) : List Use → List (Session × Except EmitError String)
  | [] => []
  | use :: rest =>
    ((writer.use use).1.session, (writer.use use).2) :: (writer.use use).1.outputs rest

/-- A use of a writer is one of its session, whatever lines it has. -/
theorem use_eq (writer : Writer) (use : Use) :
    ((writer.use use).1.session, (writer.use use).2) = writer.session.use use := by
  cases use with
  | reset => rfl
  | perform operation =>
      cases operation with
      | emit command =>
          obtain ⟨hsession, hgiven⟩ := writer.translate_eq command
          rw [use, Session.use, Session.perform, hsession, hgiven]
      | bootstrap =>
          obtain ⟨hsession, hgiven⟩ := writer.bootstrap_eq
          rw [use, Session.use, Session.perform, hsession, hgiven]
      | setSource name => rfl
      | setAnnotate annotate => rfl
      | setStackBase base => rfl

theorem session_use (writer : Writer) (use : Use) :
    (writer.use use).1.session = (writer.session.use use).1 :=
  congrArg Prod.fst (writer.use_eq use)

theorem session_after (writer : Writer) (uses : List Use) :
    (writer.after uses).session = writer.session.after uses := by
  induction uses generalizing writer with
  | nil => rfl
  | cons use rest ih => rw [after, Session.after, ih, writer.session_use]

/-- A writer gives for ever what its session gives. -/
theorem outputs_eq (writer : Writer) (uses : List Use) :
    writer.outputs uses = writer.session.outputs uses := by
  induction uses generalizing writer with
  | nil => rfl
  | cons use rest ih =>
      rw [outputs, Session.outputs, writer.use_eq, ih, writer.session_use]

end Writer

end Emit

end HackVm
