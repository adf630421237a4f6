import HackVm.Proofs.Emission.History
import HackVm.Proofs.Emission.Loaded

/-!
# Annotation never changes a program

With annotation on, a comment that shows the command stands before every block.  The comment is
made of words of the program, and a word holds none of the breaks that assembly text is cut at, so
it stays on its own line and the loader drops it.

`Annotates` relates two lists of statements of which the first only has more comments.  Such lists
have the same significant lines (`Annotates.significantLines_eq`), whatever breaks there are in the
other statements: a source name is not checked, and its symbols may well run over several lines.

The rest is a simulation.  A session and the same session with annotation on take every step
alike (`emit_annotated`), and `Outcome.Mirrors` carries this through the loops of a compilation.
Both fail at the same line: a command that was read from a line can always be shown.
-/

namespace HackVm

open Emit Hack Text

/-! ## More comments -/

/-- The first list is the second one with comments put in, each on a line of its own. -/
inductive Annotates : List Statement → List Statement → Prop
  | nil : Annotates [] []
  | comment {text : String} {long short : List Statement} (htext : IsSingleLine text)
      (hrest : Annotates long short) : Annotates (.comment text :: long) short
  | same (statement : Statement) {long short : List Statement} (hrest : Annotates long short) :
      Annotates (statement :: long) (statement :: short)

namespace Annotates

theorem refl (statements : List Statement) : Annotates statements statements := by
  induction statements with
  | nil => exact .nil
  | cons statement rest ih => exact .same statement ih

theorem append {long short later later' : List Statement} (h : Annotates long short)
    (hlater : Annotates later later') : Annotates (long ++ later) (short ++ later') := by
  induction h with
  | nil => exact hlater
  | comment htext _ ih => exact .comment htext ih
  | same statement _ ih => exact .same statement ih

end Annotates

/-- The lines of a statement do not depend on what comes after it. -/
theorem significantLines_assembly_cons (statement : Statement) (rest : List Statement) :
    significantLines (assembly (statement :: rest)) =
      significantLines (assembly [statement]) ++ significantLines (assembly rest) := by
  simp only [significantLines, assembly, List.flatMap_cons, List.flatMap_nil, String.toList_ofList,
    List.append_nil, List.append_assoc, List.singleton_append]
  rw [linesFrom_append_cons_feed, List.map_append, List.filter_append]

/-- Comments add no significant lines. -/
theorem Annotates.significantLines_eq {long short : List Statement} (h : Annotates long short) :
    significantLines (assembly long) = significantLines (assembly short) := by
  induction h with
  | nil => rfl
  | @comment text long short htext _ ih =>
      -- The comment is one line, and that line is insignificant.
      have hline : ∀ statement ∈ [Statement.comment text], statement.IsLine := by
        intro statement hmem
        rw [List.mem_singleton.mp hmem]
        exact htext
      rw [significantLines_assembly_cons, significantLines_assembly hline, ih]
      rfl
  | @same statement long short _ ih =>
      -- Breaks inside the statement do no harm, since both texts have the same ones.
      rw [significantLines_assembly_cons, ih, ← significantLines_assembly_cons]

/-! ## One command -/

/-- The session with annotation on. -/
def Emit.Session.annotated (session : Session) : Session :=
  { session with annotate := true }

private theorem operate_annotated (session : Session) (operator : Operator) :
    session.annotated.operate operator =
      ((session.operate operator).1.annotated, (session.operate operator).2) := by
  cases operator <;> rfl

/-- The block of a command does not depend on annotation. -/
theorem block_annotated (session : Session) (command : Command) :
    session.annotated.block command =
      (session.block command).map fun result => (result.1.annotated, result.2) := by
  have hlocate : ∀ word index,
      session.annotated.locateWord word index = session.locateWord word index :=
    fun _ _ => rfl
  unfold Session.block
  cases command with
  | arithmetic word =>
      dsimp only
      split
      · rw [operate_annotated]
        rfl
      · rfl
  | push word index =>
      dsimp only
      rw [hlocate]
      split <;> rfl
  | pop word index =>
      dsimp only
      rw [hlocate]
      split
      · split <;> rfl
      · rfl
  | _ => rfl

private theorem checked_comment (text : String) (body : List Statement) :
    Session.checked (.comment text :: body) =
      (Session.checked body).map (.comment text :: ·) := by
  unfold Session.checked
  rw [List.all_cons]
  change (if body.all Statement.isWritable then _ else _) = _
  split <;> rfl

/-- With annotation on, a command that can be shown gets a comment, and nothing else changes. -/
theorem emit_annotated {session : Session} {command : Command} (hbare : session.annotate = false)
    (hwritable : command.isWritable = true) :
    session.annotated.emit command =
      ((session.emit command).1.annotated,
        (session.emit command).2.map (.comment command.text :: ·)) := by
  have hlong : session.annotated.annotation command.text = [.comment command.text] := rfl
  have hshort : session.annotation command.text = [] := by
    rw [Session.annotation, hbare]
    rfl
  unfold Session.emit
  rw [block_annotated, hlong, hshort, hwritable, hbare]
  cases session.block command with
  | error reason => rfl
  | ok result => exact Prod.ext rfl (checked_comment command.text result.2)

/-! ## A compilation -/

theorem Emit.Session.Moves.annotate_eq {session next : Session} (h : session.Moves next) :
    next.annotate = session.annotate := by
  cases h <;> rfl

/-- The first outcome is the second one with annotation on. -/
structure Outcome.Mirrors (long short : Outcome) : Prop where
  failure : long.failure = short.failure
  session : long.session = short.session.annotated
  bare : short.session.annotate = false
  statements : Annotates long.statements short.statements

namespace Outcome.Mirrors

theorem start {session : Session} (hbare : session.annotate = false) :
    (Outcome.start session.annotated).Mirrors (.start session) :=
  ⟨rfl, rfl, hbare, .nil⟩

theorem andThen {long short : Outcome} {next : Session → Outcome} (h : long.Mirrors short)
    (hnext : ∀ session : Session, session.annotate = false →
      (next session.annotated).Mirrors (next session)) :
    (long.andThen next).Mirrors (short.andThen next) := by
  cases hfailure : short.failure with
  | some failure =>
      have hlong := h.failure.trans hfailure
      simpa only [Outcome.andThen, hlong, hfailure] using h
  | none =>
      have hlater := hnext short.session h.bare
      rw [Outcome.andThen_of_none (h.failure.trans hfailure), Outcome.andThen_of_none hfailure,
        h.session]
      exact ⟨hlater.failure, hlater.session, hlater.bare, h.statements.append hlater.statements⟩

end Outcome.Mirrors

/-- The lines of a source are compiled alike. -/
theorem compileLines_mirrors (source : String) (number : Nat) {session : Session}
    (hbare : session.annotate = false) (lines : List String) :
    (compileLines source number session.annotated lines).Mirrors
      (compileLines source number session lines) := by
  induction lines generalizing number session with
  | nil => exact .start hbare
  | cons line rest ih =>
      cases hread : readLine source number line with
      | error error =>
          rw [compileLines_unread hread, compileLines_unread hread]
          exact ⟨rfl, rfl, hbare, .nil⟩
      | ok found =>
          cases found with
          | none =>
              rw [compileLines_blank hread, compileLines_blank hread]
              exact ih (number + 1) hbare
          | some command =>
              -- A command that was read can be shown, so no comment fails to be written.
              have hlong := emit_annotated hbare (isRenderable_of_readLine hread).isWritable
              have hnext := (session.moves_emit command).annotate_eq
              rw [hbare] at hnext
              cases hemit : session.emit command with
              | mk next result =>
                  rw [hemit] at hlong hnext
                  cases result with
                  | error error =>
                      rw [compileLines_unemitted hread hlong, compileLines_unemitted hread hemit]
                      exact ⟨rfl, rfl, hnext, .nil⟩
                  | ok block =>
                      have hrest := ih (number + 1) hnext
                      have htext := isSingleLine_text (isPlain_of_readLine hread)
                      rw [compileLines_command hread hlong, compileLines_command hread hemit]
                      exact ⟨hrest.failure, hrest.session, hrest.bare,
                        .comment htext ((Annotates.refl block).append hrest.statements)⟩

theorem compileSource_mirrors {session : Session} (hbare : session.annotate = false)
    (source : Source) :
    (compileSource session.annotated source).Mirrors (compileSource session source) := by
  have hopen : (session.openSource source.name).annotate = false := hbare
  have hlines := compileLines_mirrors source.name 1 hopen source.lines
  obtain ⟨hfailure, -, hstatements, hsession⟩ := compileSource_eq_compileLines session source
  obtain ⟨hfailure', -, hstatements', hsession'⟩ :=
    compileSource_eq_compileLines session.annotated source
  constructor
  · rw [hfailure, hfailure']
    exact hlines.failure
  · rw [hsession, hsession']
    exact hlines.session
  · rw [hsession]
    exact hlines.bare
  · rw [hstatements, hstatements']
    exact hlines.statements

theorem compileSources_mirrors {session : Session} (hbare : session.annotate = false)
    (sources : List Source) :
    (compileSources session.annotated sources).Mirrors (compileSources session sources) := by
  induction sources generalizing session with
  | nil => exact .start hbare
  | cons source rest ih => exact (compileSource_mirrors hbare source).andThen fun _ => ih

/-- The start-up code is emitted alike, under the comment `bootstrap`. -/
theorem compileStart_mirrors {session : Session} (hbare : session.annotate = false)
    (bootstrap : Bool) :
    (compileStart session.annotated bootstrap).Mirrors (compileStart session bootstrap) := by
  cases bootstrap with
  | false => exact .start hbare
  | true =>
      have htext : IsSingleLine "bootstrap" := by decide
      unfold compileStart compileBootstrap Session.bootstrap
      by_cases hwritable : Text.isWritable session.stackBase = true
      · have hlong : Text.isWritable session.annotated.stackBase = true := hwritable
        have hnone : session.annotation "bootstrap" = [] := by
          rw [Session.annotation, hbare]
          rfl
        rw [if_pos rfl, if_pos rfl, if_pos hlong, if_pos hwritable, hnone]
        exact ⟨rfl, rfl, hbare, .comment htext (.refl _)⟩
      · have hlong : ¬ Text.isWritable session.annotated.stackBase = true := hwritable
        rw [if_pos rfl, if_pos rfl, if_neg hlong, if_neg hwritable]
        exact ⟨rfl, rfl, hbare, .nil⟩

theorem compileIn_mirrors {session : Session} (hbare : session.annotate = false)
    (bootstrap : Bool) (sources : List Source) :
    (compileIn session.annotated bootstrap sources).Mirrors
      (compileIn session bootstrap sources) := by
  unfold compileIn
  exact (compileStart_mirrors hbare bootstrap).andThen fun _ h => compileSources_mirrors h sources

/-- With annotation and without it a program fails with the same failure, or it compiles to two
texts that load as the same image, with the same instructions, labels and variables, or do not load
for the same reason. -/
theorem annotation_keeps_program (bootstrap : Bool) (stackBase : Int) (sources : List Source) :
    (∃ failure, compileText ⟨bootstrap, true, stackBase⟩ sources = .error failure ∧
      compileText ⟨bootstrap, false, stackBase⟩ sources = .error failure) ∨
    ∃ annotated bare, compileText ⟨bootstrap, true, stackBase⟩ sources = .ok annotated ∧
      compileText ⟨bootstrap, false, stackBase⟩ sources = .ok bare ∧
      Image.load annotated = Image.load bare := by
  have hbare : (Session.fresh false stackBase).annotate = false := rfl
  have hmirrors : (compile ⟨bootstrap, true, stackBase⟩ sources).Mirrors
      (compile ⟨bootstrap, false, stackBase⟩ sources) := compileIn_mirrors hbare bootstrap sources
  unfold compileText Outcome.result
  rw [hmirrors.failure]
  cases (compile ⟨bootstrap, false, stackBase⟩ sources).failure with
  | some failure => exact .inl ⟨failure, rfl, rfl⟩
  | none =>
      refine .inr ⟨_, _, rfl, rfl, ?_⟩
      rw [load_eq_ofLines, load_eq_ofLines, hmirrors.statements.significantLines_eq]

end HackVm
