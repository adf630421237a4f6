import HackVm.Proofs.Emission.Writers

/-!
# A run does not depend on the runs before it

A compiler is used again and again, and a session is started over between programs, also after a
run that failed somewhere in the middle.  What a session has of its past are two counters, the
source and the function, and starting over drops all four.  The settings stay, and nothing that is
emitted changes them, whether it succeeds or fails.  So what a session starts over as is kept by
every step of a compilation (`reset_compileIn`), and a run depends on nothing else.

A writer also has the lines of a block that failed, and these survive a new start.  They do not
show: what a writer gives is what its session gives.
-/

namespace HackVm

open Emit

namespace Emit.Session

/-! ## What a session starts over as -/

theorem reset_reset (session : Session) : session.reset.reset = session.reset :=
  rfl

theorem reset_openSource (session : Session) (name : String) :
    (session.openSource name).reset = session.reset :=
  rfl

theorem Moves.reset_eq {session next : Session} (h : session.Moves next) :
    next.reset = session.reset := by
  cases h <;> rfl

theorem moves_emit (session : Session) (command : Command) :
    session.Moves (session.emit command).1 := by
  unfold emit
  split
  · exact .stays
  · split
    · exact .stays
    · next hblock => exact moves_block hblock

theorem moves_bootstrap (session : Session) : session.Moves session.bootstrap.1 := by
  unfold bootstrap
  split
  · exact .call
  · exact .stays

theorem reset_perform (session : Session) {operation : Operation}
    (hkeeps : operation.keepsSettings = true) :
    (session.perform operation).1.reset = session.reset := by
  cases operation with
  | emit command => exact (session.moves_emit command).reset_eq
  | bootstrap =>
      rw [perform]
      exact session.moves_bootstrap.reset_eq
  | setSource name => rfl
  | setAnnotate annotate => exact absurd hkeeps Bool.false_ne_true
  | setStackBase base => exact absurd hkeeps Bool.false_ne_true

theorem reset_use (session : Session) {use : Use} (hkeeps : use.keepsSettings = true) :
    (session.use use).1.reset = session.reset := by
  cases use with
  | reset => rfl
  | perform operation => exact session.reset_perform hkeeps

theorem reset_after (session : Session) {uses : List Use}
    (hkeeps : ∀ use ∈ uses, use.keepsSettings = true) :
    (session.after uses).reset = session.reset := by
  induction uses generalizing session with
  | nil => rfl
  | cons use rest ih =>
      obtain ⟨huse, hrest⟩ := List.forall_mem_cons.mp hkeeps
      rw [after, ih _ hrest, session.reset_use huse]

end Emit.Session

/-! ## What a compilation starts over as -/

private theorem reset_compileLines (source : String) (number : Nat) (session : Session)
    (lines : List String) :
    (compileLines source number session lines).session.reset = session.reset := by
  induction lines generalizing number session with
  | nil => rfl
  | cons line rest ih =>
      cases hread : readLine source number line with
      | error error => simp only [compileLines, hread, Outcome.failed]
      | ok found =>
          cases found with
          | none => simpa only [compileLines, hread] using ih (number + 1) session
          | some command =>
              -- A failed command counts too: a call that cannot be written has taken its number.
              have hnext := (session.moves_emit command).reset_eq
              cases hemit : session.emit command with
              | mk next result =>
                  rw [hemit] at hnext
                  cases result with
                  | error error =>
                      simpa only [compileLines, hread, hemit, Outcome.failed, Outcome.withRecord]
                        using hnext
                  | ok block =>
                      simpa only [compileLines, hread, hemit, Outcome.withCommand,
                        Outcome.withRecord, hnext] using ih (number + 1) next

private theorem reset_compileSource (session : Session) (source : Source) :
    (compileSource session source).session.reset = session.reset := by
  have hlines := reset_compileLines source.name 1 (session.openSource source.name) source.lines
  rw [session.reset_openSource] at hlines
  rw [← hlines, compileSource]
  dsimp only [Outcome.withRecord]
  split <;> rfl

/-- Two stages that keep what their session starts over as keep it together. -/
private theorem reset_andThen {session : Session} {first : Outcome} {next : Session → Outcome}
    (hfirst : first.session.reset = session.reset)
    (hnext : ∀ middle, (next middle).session.reset = middle.reset) :
    (first.andThen next).session.reset = session.reset := by
  unfold Outcome.andThen
  split
  · exact hfirst
  · exact (hnext first.session).trans hfirst

private theorem reset_compileSources (session : Session) (sources : List Source) :
    (compileSources session sources).session.reset = session.reset := by
  induction sources generalizing session with
  | nil => rfl
  | cons source rest ih => exact reset_andThen (reset_compileSource session source) ih

private theorem reset_compileStart (session : Session) (bootstrap : Bool) :
    (compileStart session bootstrap).session.reset = session.reset := by
  have hnext := session.moves_bootstrap.reset_eq
  unfold compileStart compileBootstrap
  cases hbootstrap : session.bootstrap with
  | mk next result =>
      rw [hbootstrap] at hnext
      cases bootstrap with
      | false => rfl
      | true => cases result <;> exact hnext

theorem reset_compileIn (session : Session) (bootstrap : Bool) (sources : List Source) :
    (compileIn session bootstrap sources).session.reset = session.reset :=
  reset_andThen (reset_compileStart session bootstrap) fun middle =>
    reset_compileSources middle sources

/-! ## Runs of a compiler -/

namespace Compiler

/-- The compiler after a sequence of runs. -/
def after (compiler : Compiler) : List (List Source) → Compiler
  | [] => compiler
  | sources :: rest => (compiler.run sources).1.after rest

/-- The compiler before its first run. -/
def restarted (compiler : Compiler) : Compiler :=
  ⟨compiler.bootstrap, compiler.session.reset, 0⟩

theorem run_restarted (compiler : Compiler) (sources : List Source) :
    compiler.restarted.run sources = compiler.run sources :=
  rfl

theorem restarted_run (compiler : Compiler) (sources : List Source) :
    (compiler.run sources).1.restarted = compiler.restarted := by
  have hreset := reset_compileIn compiler.session.reset compiler.bootstrap sources
  rw [compiler.session.reset_reset] at hreset
  simp only [run, restarted, hreset]

theorem restarted_after (compiler : Compiler) (history : List (List Source)) :
    (compiler.after history).restarted = compiler.restarted := by
  induction history generalizing compiler with
  | nil => rfl
  | cons sources rest ih => rw [after, ih, restarted_run]

end Compiler

/-- After any runs, whether they succeeded or failed, a compiler does with a program what a new one
does: it gives the same text or the same failure, and is left in the same state.  After any uses
that leave its settings as they are, a session that starts over gives for ever what a new one
gives, and so does a writer, whatever lines are left of a block that failed. -/
theorem run_ignores_history :
    (∀ (settings : Settings) (history : List (List Source)) (sources : List Source),
      ((Compiler.ofSettings settings).after history).run sources =
        (Compiler.ofSettings settings).run sources) ∧
    ∀ (annotate : Bool) (stackBase : Int) (earlier later : List Use),
      (∀ use ∈ earlier, use.keepsSettings = true) →
        ((Session.fresh annotate stackBase).after earlier).reset.outputs later =
          (Session.fresh annotate stackBase).outputs later ∧
        (((Writer.fresh annotate stackBase).after earlier).use .reset).1.outputs later =
          (Writer.fresh annotate stackBase).outputs later := by
  constructor
  · intro settings history sources
    rw [← Compiler.run_restarted, Compiler.restarted_after, Compiler.run_restarted]
  · intro annotate stackBase earlier later hkeeps
    have hsession : ((Session.fresh annotate stackBase).after earlier).reset =
        Session.fresh annotate stackBase :=
      Session.reset_after _ hkeeps
    refine ⟨by rw [hsession], ?_⟩
    have hwriter : (((Writer.fresh annotate stackBase).after earlier).use .reset).1.session =
        (Writer.fresh annotate stackBase).session := by
      rw [Writer.session_use, Writer.session_after]
      exact hsession
    rw [Writer.outputs_eq, Writer.outputs_eq, hwriter]

/-- The run before ends at a line with a fault, in a function and after a call.  The last use
before the new start is refused, and its comment is left over. -/
theorem run_ignores_history_sample :
    let compiler := Compiler.ofSettings ⟨true, false, 256⟩
    let history := [[⟨"Main", ["function Main.f 0", "call Main.g 1", "jump"]⟩]]
    let session := Session.fresh true 256
    let writer := Writer.fresh true 256
    let earlier := [.perform (.setSource (some "Main")), .perform (.emit (.function "Main.f" 0)),
      .perform (.emit (.arithmetic "eq")), .perform (.emit (.pop "constant" 0))]
    let later := [.perform (.emit (.call "Main.g" 1)), .perform (.emit (.push "static" 0))]
    compiler.after history ≠ compiler ∧
      (compiler.after history).run [⟨"Main", ["call Main.g 1"]⟩] =
        compiler.run [⟨"Main", ["call Main.g 1"]⟩] ∧
      session.after earlier ≠ session ∧
      (session.after earlier).reset.outputs later = session.outputs later ∧
      ((writer.after earlier).use .reset).1.lines = [.comment "pop constant 0"] ∧
      ((writer.after earlier).use .reset).1.outputs later = writer.outputs later := by
  intro compiler history session writer earlier later
  have hkeeps : ∀ use ∈ earlier, use.keepsSettings = true := by decide
  obtain ⟨hsession, hwriter⟩ := run_ignores_history.2 true 256 earlier later hkeeps
  exact ⟨by decide +kernel, run_ignores_history.1 _ _ _, by decide +kernel, hsession,
    by decide +kernel, hwriter⟩

end HackVm
