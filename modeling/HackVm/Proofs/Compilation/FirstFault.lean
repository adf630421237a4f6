import HackVm.Proofs.Emission.History
import HackVm.Proofs.Reading.Grammar

/-!
# The earliest line with a fault decides

Reading and emitting go hand in hand: a line is only read when the command before it has been
emitted.  So faults of both kinds, in different lines and sources, compete, and the earliest line
that has one decides the outcome of a run, whatever stands after it.

```text
LinesPass source number session lines commands final    all these lines of a source pass
SourcesPass session sources commands final              all lines of these sources pass
ArrivesAt opening sources commands session ... line     everything before the line passes
LineFails source number session line failure            the line itself does not
```

The relations follow the two loops of a compilation, and a line is judged in the session that the
commands before it left behind.  Compiling what passes and then something else is compiling the
something else from there (`LinesPass.compile_append`, `SourcesPass.compile_append`).  Either
everything passes or a line is reached that fails (`passes_or_fails`), which gives both directions
of `earliest_fault_decides`.
-/

namespace HackVm

open Emit

/-! ## Lines that pass and lines that fail -/

/-- Every line is insignificant, or holds a command that the session left by the commands before it
has code for. -/
inductive LinesPass (source : String) :
    Nat → Session → List String → List Command → Session → Prop
  | nil (number : Nat) (session : Session) : LinesPass source number session [] [] session
  | blank {number : Nat} {session final : Session} {line : String} {rest : List String}
      {commands : List Command} (hread : readLine source number line = .ok none)
      (hrest : LinesPass source (number + 1) session rest commands final) :
      LinesPass source number session (line :: rest) commands final
  | command {number : Nat} {session next final : Session} {line : String} {rest : List String}
      {command : Command} {commands : List Command} {block : List Statement}
      (hread : readLine source number line = .ok (some command))
      (hemit : session.emit command = (next, .ok block))
      (hrest : LinesPass source (number + 1) next rest commands final) :
      LinesPass source number session (line :: rest) (command :: commands) final

/-- Every line of every source passes, the sources taken in order. -/
inductive SourcesPass : Session → List Source → List Command → Session → Prop
  | nil (session : Session) : SourcesPass session [] [] session
  | cons {session middle final : Session} {source : Source} {rest : List Source}
      {own later : List Command}
      (hlines : LinesPass source.name 1 (session.openSource source.name) source.lines own middle)
      (hrest : SourcesPass middle rest later final) :
      SourcesPass session (source :: rest) (own ++ later) final

/-- The line cannot be read, or the session has no code for its command. -/
inductive LineFails (source : String) (number : Nat) (session : Session) (line : String) :
    Failure → Prop
  | unread {error : LineError} (hread : readLine source number line = .error error) :
      LineFails source number session line (.ofLine error)
  | unemitted {command : Command} {next : Session} {error : EmitError}
      (hread : readLine source number line = .ok (some command))
      (hemit : session.emit command = (next, .error error)) :
      LineFails source number session line (.ofEmit error)

/-- All lines before this one pass: those of the sources before its own, and those before it in its
own source, where it has the given number, counted from one. -/
inductive ArrivesAt (opening : Session) (sources : List Source) :
    List Command → Session → Source → Nat → String → Prop
  | intro {before after : List Source} {source : Source} {front rest : List String} {line : String}
      {earlier own : List Command} {middle session : Session}
      (hsources : sources = before ++ source :: after)
      (hlines : source.lines = front ++ line :: rest)
      (hbefore : SourcesPass opening before earlier middle)
      (hfront : LinesPass source.name 1 (middle.openSource source.name) front own session) :
      ArrivesAt opening sources (earlier ++ own) session source (front.length + 1) line

/-- A failure that tells which line it was found in. -/
def Failure.isPlaced : Failure → Bool
  | .malformed _ => true
  | .refused _ => true
  | _ => false

/-! ## What a failure tells -/

theorem emit_eq_refused {session next : Session} {command : Command} {refusal : Refusal}
    (h : session.emit command = (next, .error (.refused refusal))) :
    next = session ∧ refusal.command = command ∧ refusal.source = session.source.getD "" := by
  unfold Session.emit at h
  split at h
  · exact absurd (Prod.mk.inj h).2 (by simp)
  · split at h
    · obtain ⟨rfl, hrefuse⟩ := Prod.mk.inj h
      unfold Session.refuse at hrefuse
      split at hrefuse
      · obtain rfl := EmitError.refused.inj (Except.error.inj hrefuse)
        exact ⟨rfl, rfl, rfl⟩
      · exact absurd (Except.error.inj hrefuse) (by simp)
    · obtain ⟨-, hchecked⟩ := Prod.mk.inj h
      unfold Session.checked at hchecked
      split at hchecked
      · exact absurd hchecked (by simp)
      · exact absurd (Except.error.inj hchecked) (by simp)

namespace LineFails

variable {source line : String} {number : Nat} {session : Session} {failure : Failure}

/-- A malformed line is named by its source and number. -/
theorem malformed_eq {malformed : Malformed}
    (h : LineFails source number session line (.malformed malformed)) :
    malformed.source = source ∧ malformed.number = number ∧
      malformed.line = Line.withoutFeeds line := by
  generalize hfailure : Failure.malformed malformed = failure at h
  cases h with
  | @unread error hread =>
      cases error with
      | malformed error =>
          obtain rfl := Failure.malformed.inj hfailure
          obtain ⟨flaw, -, rfl⟩ := readLine_eq_malformed_iff.mp hread
          exact ⟨rfl, rfl, rfl⟩
      | number error => exact absurd hfailure (by simp [Failure.ofLine])
  | @unemitted _ _ error =>
      cases error <;> exact absurd hfailure (by simp [Failure.ofEmit])

/-- A refusal names the source and holds the command of its line. -/
theorem refused_eq {refusal : Refusal} (hsource : session.source = some source)
    (h : LineFails source number session line (.refused refusal)) :
    refusal.source = source ∧ readLine source number line = .ok (some refusal.command) := by
  generalize hfailure : Failure.refused refusal = failure at h
  cases h with
  | @unread error =>
      cases error <;> exact absurd hfailure (by simp [Failure.ofLine])
  | @unemitted _ _ error hread hemit =>
      cases error with
      | refused error =>
          obtain rfl := Failure.refused.inj hfailure
          obtain ⟨-, rfl, hname⟩ := emit_eq_refused hemit
          rw [hname, hsource]
          exact ⟨rfl, hread⟩
      | number error => exact absurd hfailure (by simp [Failure.ofEmit])

/-- At a line that fails, nothing more is compiled.  The session stays as it was, unless a number
could not be written. -/
theorem compileLines_cons (h : LineFails source number session line failure)
    (rest : List String) :
    (compileLines source number session (line :: rest)).failure = some failure ∧
      (compileLines source number session (line :: rest)).count = 0 ∧
      (failure.isPlaced = true →
        (compileLines source number session (line :: rest)).session = session) := by
  cases h with
  | unread hread =>
      rw [compileLines_unread hread]
      exact ⟨rfl, rfl, fun _ => rfl⟩
  | @unemitted command next error hread hemit =>
      rw [compileLines_unemitted hread hemit]
      refine ⟨rfl, rfl, fun hplaced => ?_⟩
      cases error with
      | refused refusal => exact (emit_eq_refused hemit).1
      | number error => exact absurd hplaced (by simp [Failure.ofEmit, Failure.isPlaced])

end LineFails

/-! ## Compiling what passes -/

/-- After lines that pass, a compilation goes on from the session they leave. -/
theorem LinesPass.compile_append {source : String} {number : Nat} {session middle : Session}
    {front : List String} {commands : List Command}
    (h : LinesPass source number session front commands middle) (rest : List String) :
    ∃ done : Outcome, done.count = commands.length ∧
      compileLines source number session (front ++ rest) =
        done.followedBy (compileLines source (number + front.length) middle rest) := by
  induction h with
  | nil number session => exact ⟨.start session, rfl, (Outcome.start_followedBy ..).symm⟩
  | @blank number _ _ line front _ hread _ ih =>
      obtain ⟨done, hcount, hcompile⟩ := ih
      refine ⟨done, hcount, ?_⟩
      rw [List.cons_append, compileLines_blank hread, hcompile, List.length_cons,
        Nat.add_right_comm, Nat.add_assoc]
  | @command number session _ _ line front command _ block hread hemit _ ih =>
      obtain ⟨done, hcount, hcompile⟩ := ih
      let first : Outcome := ⟨session, 1, block, [commandRecord source number command], none⟩
      refine ⟨first.followedBy done, ?_, ?_⟩
      · rw [Outcome.count_followedBy, hcount, List.length_cons, Nat.add_comm]
      · rw [List.cons_append, compileLines_command hread hemit, hcompile,
          Outcome.withCommand_withRecord _ session, List.length_cons, Nat.add_right_comm,
          Nat.add_assoc, Outcome.followedBy_assoc]

/-- Lines that pass are compiled without a fault. -/
theorem LinesPass.compileLines_eq {source : String} {number : Nat} {session final : Session}
    {lines : List String} {commands : List Command}
    (h : LinesPass source number session lines commands final) :
    (compileLines source number session lines).failure = none ∧
      (compileLines source number session lines).count = commands.length ∧
      (compileLines source number session lines).session = final := by
  obtain ⟨done, hcount, hcompile⟩ := h.compile_append []
  rw [List.append_nil] at hcompile
  rw [hcompile]
  exact ⟨rfl, hcount, rfl⟩

/-- After sources that pass, a compilation goes on from the session they leave. -/
theorem SourcesPass.compile_append {session middle : Session} {before : List Source}
    {commands : List Command} (h : SourcesPass session before commands middle)
    (rest : List Source) :
    ∃ done : Outcome, done.count = commands.length ∧
      compileSources session (before ++ rest) = done.followedBy (compileSources middle rest) := by
  induction h with
  | nil session => exact ⟨.start session, rfl, (Outcome.start_followedBy ..).symm⟩
  | @cons session _ _ source _ own later hlines _ ih =>
      obtain ⟨done, hcount, hcompile⟩ := ih
      obtain ⟨hfailure, hown, -, hsession⟩ := compileSource_eq_compileLines session source
      obtain ⟨hnone, hlength, hmiddle⟩ := hlines.compileLines_eq
      refine ⟨(compileSource session source).followedBy done, ?_, ?_⟩
      · rw [Outcome.count_followedBy, hown, hlength, hcount, List.length_append]
      · rw [List.cons_append, compileSources, Outcome.andThen_of_none (hfailure.trans hnone),
          hsession, hmiddle, hcompile, Outcome.followedBy_assoc]

/-- Sources that pass are compiled without a fault. -/
theorem SourcesPass.compileSources_eq {session final : Session} {sources : List Source}
    {commands : List Command} (h : SourcesPass session sources commands final) :
    (compileSources session sources).failure = none ∧
      (compileSources session sources).count = commands.length ∧
      (compileSources session sources).session = final := by
  obtain ⟨done, hcount, hcompile⟩ := h.compile_append []
  rw [List.append_nil] at hcompile
  rw [hcompile]
  exact ⟨rfl, hcount, rfl⟩

/-- What a compilation is at a line that is reached and fails. -/
theorem ArrivesAt.compileSources_eq {opening session : Session} {sources : List Source}
    {commands : List Command} {source : Source} {number : Nat} {line : String} {failure : Failure}
    (harrive : ArrivesAt opening sources commands session source number line)
    (hfail : LineFails source.name number session line failure) :
    (compileSources opening sources).failure = some failure ∧
      (compileSources opening sources).count = commands.length ∧
      (failure.isPlaced = true → (compileSources opening sources).session = session) := by
  cases harrive with
  | @intro before after source front rest line earlier own middle session hsources hlines hbefore
      hfront =>
      obtain ⟨done, hearlier, hcompile⟩ := hbefore.compile_append (source :: after)
      obtain ⟨begun, hown, hsource⟩ := hfront.compile_append (line :: rest)
      rw [Nat.add_comm] at hfail
      obtain ⟨hfailure, hcount, hsession⟩ := hfail.compileLines_cons rest
      obtain ⟨hends, htotal, -, hlast⟩ := compileSource_eq_compileLines middle source
      rw [hlines, hsource, Outcome.failure_followedBy, hfailure] at hends
      rw [hlines, hsource, Outcome.count_followedBy, hown, hcount] at htotal
      rw [hlines, hsource, Outcome.session_followedBy] at hlast
      have hstop : compileSources middle (source :: after) = compileSource middle source := by
        rw [compileSources, Outcome.andThen, hends]
      rw [hsources, hcompile, hstop, Outcome.failure_followedBy, Outcome.count_followedBy,
        Outcome.session_followedBy, hends, htotal, hlast, hearlier, List.length_append,
        Nat.add_zero]
      exact ⟨rfl, rfl, hsession⟩

/-! ## Everything passes or a line fails -/

theorem linesPass_or_fails (source : String) (number : Nat) (session : Session)
    (lines : List String) :
    (∃ commands final, LinesPass source number session lines commands final) ∨
      ∃ front line rest commands here failure, lines = front ++ line :: rest ∧
        LinesPass source number session front commands here ∧
        LineFails source (number + front.length) here line failure := by
  induction lines generalizing number session with
  | nil => exact .inl ⟨[], session, .nil number session⟩
  | cons line rest ih =>
      cases hread : readLine source number line with
      | error error =>
          exact .inr ⟨[], line, rest, [], session, _, rfl, .nil number session, .unread hread⟩
      | ok found =>
          cases found with
          | none =>
              rcases ih (number + 1) session with ⟨commands, final, hpass⟩ |
                ⟨front, bad, after, commands, here, failure, hrest, hpass, hfail⟩
              · exact .inl ⟨commands, final, .blank hread hpass⟩
              · rw [Nat.add_assoc, Nat.add_comm 1] at hfail
                exact .inr ⟨line :: front, bad, after, commands, here, failure,
                  congrArg (line :: ·) hrest, .blank hread hpass, hfail⟩
          | some command =>
              cases hemit : session.emit command with
              | mk next result =>
                  cases result with
                  | error error =>
                      exact .inr ⟨[], line, rest, [], session, _, rfl, .nil number session,
                        .unemitted hread hemit⟩
                  | ok block =>
                      rcases ih (number + 1) next with ⟨commands, final, hpass⟩ |
                        ⟨front, bad, after, commands, here, failure, hrest, hpass, hfail⟩
                      · exact .inl ⟨_, final, .command hread hemit hpass⟩
                      · rw [Nat.add_assoc, Nat.add_comm 1] at hfail
                        exact .inr ⟨line :: front, bad, after, _, here, failure,
                          congrArg (line :: ·) hrest, .command hread hemit hpass, hfail⟩

theorem passes_or_fails (session : Session) (sources : List Source) :
    (∃ commands final, SourcesPass session sources commands final) ∨
      ∃ commands here source number line failure,
        ArrivesAt session sources commands here source number line ∧
        LineFails source.name number here line failure := by
  induction sources generalizing session with
  | nil => exact .inl ⟨[], session, .nil session⟩
  | cons source rest ih =>
      rcases linesPass_or_fails source.name 1 (session.openSource source.name) source.lines with
        ⟨own, middle, hlines⟩ | ⟨front, line, after, own, here, failure, hsplit, hfront, hfail⟩
      · rcases ih middle with ⟨later, final, hrest⟩ |
          ⟨commands, here, other, number, line, failure, harrive, hfail⟩
        · exact .inl ⟨own ++ later, final, .cons hlines hrest⟩
        · cases harrive with
          | @intro before _ _ _ _ _ earlier inner _ _ hsources hsplit hbefore hfront =>
              refine .inr ⟨own ++ earlier ++ inner, here, other, _, line, failure, ?_, hfail⟩
              exact .intro (congrArg (source :: ·) hsources) hsplit (.cons hlines hbefore) hfront
      · rw [Nat.add_comm] at hfail
        exact .inr ⟨[] ++ own, here, source, _, line, failure,
          .intro (List.nil_append _).symm hsplit (.nil session) hfront, hfail⟩

/-! ## Counters and source -/

/-- The command is one of the three comparisons. -/
def Command.isComparison : Command → Bool
  | .arithmetic word => word == "eq" || word == "gt" || word == "lt"
  | _ => false

def Command.isCall : Command → Bool
  | .call _ _ => true
  | _ => false

/-- A comparison and a call count, and nothing else does. -/
theorem emit_counters {session next : Session} {command : Command} {block : List Statement}
    (h : session.emit command = (next, .ok block)) :
    next.comparisons = session.comparisons + (if command.isComparison then 1 else 0) ∧
      next.calls = session.calls + (if command.isCall then 1 else 0) := by
  obtain ⟨body, hblock, -, -⟩ := emit_eq_ok h
  cases block_eq_ok_iff.mp hblock with
  | @operate word operator hoperator =>
      have hfound := List.find?_some hoperator
      have hword : operator.word = word := beq_iff_eq.mp hfound
      rw [← hword]
      cases operator <;> exact ⟨rfl, rfl⟩
  | _ => exact ⟨rfl, rfl⟩

theorem Emit.Session.Moves.source_eq {session next : Session} (h : session.Moves next) :
    next.source = session.source := by
  cases h <;> rfl

/-- The commands were counted between two sessions. -/
def Counted (before after : Session) (commands : List Command) : Prop :=
  after.comparisons = before.comparisons + commands.countP Command.isComparison ∧
    after.calls = before.calls + commands.countP Command.isCall

theorem Counted.append {first middle last : Session} {commands later : List Command}
    (h₁ : Counted first middle commands) (h₂ : Counted middle last later) :
    Counted first last (commands ++ later) := by
  constructor
  · rw [h₂.1, h₁.1, List.countP_append, Nat.add_assoc]
  · rw [h₂.2, h₁.2, List.countP_append, Nat.add_assoc]

theorem LinesPass.counted {source : String} {number : Nat} {session final : Session}
    {lines : List String} {commands : List Command}
    (h : LinesPass source number session lines commands final) :
    Counted session final commands ∧ final.source = session.source := by
  induction h with
  | nil => exact ⟨⟨rfl, rfl⟩, rfl⟩
  | blank _ _ ih => exact ih
  | @command _ session next _ _ _ command _ _ _ hemit _ ih =>
      have hfirst : Counted session next [command] := by
        obtain ⟨hcomparisons, hcalls⟩ := emit_counters hemit
        exact ⟨by simpa [List.countP_cons] using hcomparisons,
          by simpa [List.countP_cons] using hcalls⟩
      have hmoves := session.moves_emit command
      rw [hemit] at hmoves
      exact ⟨hfirst.append ih.1, ih.2.trans hmoves.source_eq⟩

theorem SourcesPass.counted {session final : Session} {sources : List Source}
    {commands : List Command} (h : SourcesPass session sources commands final) :
    Counted session final commands ∧
      final.source = (sources.getLast?.map Source.name).or session.source := by
  induction h with
  | nil => exact ⟨⟨rfl, rfl⟩, rfl⟩
  | @cons session _ _ source rest _ _ hlines _ ih =>
      obtain ⟨hown, hsource⟩ := hlines.counted
      refine ⟨Counted.append hown ih.1, ?_⟩
      rw [ih.2, hsource, List.getLast?_cons]
      cases rest.getLast? <;> rfl

theorem ArrivesAt.counted {opening session : Session} {sources : List Source}
    {commands : List Command} {source : Source} {number : Nat} {line : String}
    (h : ArrivesAt opening sources commands session source number line) :
    Counted opening session commands ∧ session.source = some source.name := by
  cases h with
  | intro _ _ hbefore hfront =>
      obtain ⟨hearlier, -⟩ := hbefore.counted
      obtain ⟨hown, hsource⟩ := hfront.counted
      exact ⟨hearlier.append hown, hsource⟩

/-! ## A run -/

namespace Compiler

/-- The session in which the first command of a run is compiled. -/
def opening (compiler : Compiler) : Session :=
  (compileStart compiler.session.reset compiler.bootstrap).session

/-- The start-up code can be written, if it is wanted. -/
def StartsUp (compiler : Compiler) : Prop :=
  compiler.bootstrap = true → ∃ block, compiler.session.reset.bootstrap.2 = .ok block

/-- The counters after a run that compiled the commands. -/
structure Tallies (compiler : Compiler) (commands : List Command) : Prop where
  count : compiler.count = commands.length
  comparisons : compiler.session.comparisons = commands.countP Command.isComparison
  calls : compiler.session.calls =
    commands.countP Command.isCall + if compiler.bootstrap then 1 else 0

theorem run_eq_error {compiler : Compiler} {sources : List Source} {failure : Failure}
    (h : (compileIn compiler.session.reset compiler.bootstrap sources).failure = some failure) :
    (compiler.run sources).2 = .error failure := by
  rw [run, Outcome.result, h]

theorem StartsUp.compileStart_eq {compiler : Compiler} (h : compiler.StartsUp) :
    (compileStart compiler.session.reset compiler.bootstrap).failure = none ∧
      (compileStart compiler.session.reset compiler.bootstrap).count = 0 ∧
      compiler.opening.comparisons = 0 ∧
      compiler.opening.calls = (if compiler.bootstrap then 1 else 0) ∧
      compiler.opening.source = none := by
  unfold opening compileStart
  cases hbootstrap : compiler.bootstrap with
  | false => exact ⟨rfl, rfl, rfl, rfl, rfl⟩
  | true =>
      obtain ⟨block, hblock⟩ := h hbootstrap
      unfold Session.bootstrap at hblock
      unfold compileBootstrap Session.bootstrap
      by_cases hwritable : Text.isWritable compiler.session.reset.stackBase = true
      · rw [if_pos rfl, if_pos hwritable]
        exact ⟨rfl, rfl, rfl, rfl, rfl⟩
      · simp [hwritable] at hblock

/-- With its start-up code written, a run is what its sources make of it. -/
theorem StartsUp.run_eq {compiler : Compiler} (h : compiler.StartsUp) (sources : List Source) :
    let outcome := compileSources compiler.opening sources
    (compiler.run sources).1.count = outcome.count ∧
      (compiler.run sources).1.session = outcome.session ∧
      (compiler.run sources).1.bootstrap = compiler.bootstrap ∧
      (∀ failure, (compiler.run sources).2 = .error failure ↔ outcome.failure = some failure) := by
  intro outcome
  obtain ⟨hnone, hzero, -⟩ := h.compileStart_eq
  have hrun : compileIn compiler.session.reset compiler.bootstrap sources =
      (compileStart compiler.session.reset compiler.bootstrap).followedBy outcome :=
    Outcome.andThen_of_none hnone _
  refine ⟨?_, ?_, rfl, fun failure => ?_⟩
  · rw [run, hrun, Outcome.count_followedBy, hzero, Nat.zero_add]
  · rw [run, hrun, Outcome.session_followedBy]
  · rw [run, hrun, Outcome.result, Outcome.failure_followedBy]
    cases outcome.failure <;> simp

theorem StartsUp.tallies {compiler : Compiler} (h : compiler.StartsUp) {sources : List Source}
    {commands : List Command} {session : Session}
    (hcount : (compileSources compiler.opening sources).count = commands.length)
    (hsession : (compileSources compiler.opening sources).session = session)
    (hcounted : Counted compiler.opening session commands) :
    (compiler.run sources).1.Tallies commands := by
  obtain ⟨hruncount, hrunsession, hbootstrap, -⟩ := h.run_eq sources
  obtain ⟨-, -, hcomparisons, hcalls, -⟩ := h.compileStart_eq
  refine ⟨hruncount.trans hcount, ?_, ?_⟩
  · rw [hrunsession, hsession, hcounted.1, hcomparisons, Nat.zero_add]
  · rw [hrunsession, hsession, hcounted.2, hcalls, hbootstrap, Nat.add_comm]

end Compiler

/-- A run succeeds when every line of every source passes, and otherwise ends with the failure of
the earliest line that does not, whatever stands after it.  A malformed line is told by its source,
its number in that source and its text, and a refused command by its source and itself.  After a
success and after such a failure the counters are those of the commands before that point, and the
source is the last one opened. -/
theorem earliest_fault_decides (compiler : Compiler) (sources : List Source)
    (hstart : compiler.StartsUp) :
    ((∃ text, (compiler.run sources).2 = .ok text) ↔
      ∃ commands final, SourcesPass compiler.opening sources commands final) ∧
    (∀ failure, (compiler.run sources).2 = .error failure ↔
      ∃ commands session source number line,
        ArrivesAt compiler.opening sources commands session source number line ∧
        LineFails source.name number session line failure) ∧
    (∀ commands final, SourcesPass compiler.opening sources commands final →
      (compiler.run sources).1.Tallies commands ∧
      (compiler.run sources).1.session.source = sources.getLast?.map Source.name) ∧
    (∀ commands session source number line failure,
      ArrivesAt compiler.opening sources commands session source number line →
      LineFails source.name number session line failure →
      (failure.isPlaced = true → (compiler.run sources).1.Tallies commands ∧
        (compiler.run sources).1.session.source = some source.name) ∧
      (∀ malformed, failure = .malformed malformed → malformed.source = source.name ∧
        malformed.number = number ∧ malformed.line = Line.withoutFeeds line) ∧
      (∀ refusal, failure = .refused refusal → refusal.source = source.name ∧
        readLine source.name number line = .ok (some refusal.command))) := by
  obtain ⟨-, hsession, -, herror⟩ := hstart.run_eq sources
  refine ⟨⟨?_, ?_⟩, fun failure => ⟨?_, ?_⟩, ?_, ?_⟩
  · rintro ⟨text, hok⟩
    rcases passes_or_fails compiler.opening sources with hpass |
      ⟨commands, here, source, number, line, failure, harrive, hfail⟩
    · exact hpass
    · have hbad := (herror failure).mpr (harrive.compileSources_eq hfail).1
      exact absurd (hok.symm.trans hbad) (by simp)
  · rintro ⟨commands, final, hpass⟩
    cases hresult : (compiler.run sources).2 with
    | ok text => exact ⟨text, rfl⟩
    | error failure =>
        have hsome := (herror failure).mp hresult
        exact absurd (hpass.compileSources_eq.1.symm.trans hsome) (by simp)
  · intro hbad
    have hsome := (herror failure).mp hbad
    rcases passes_or_fails compiler.opening sources with ⟨commands, final, hpass⟩ |
      ⟨commands, here, source, number, line, other, harrive, hfail⟩
    · exact absurd (hpass.compileSources_eq.1.symm.trans hsome) (by simp)
    · have hother := (harrive.compileSources_eq hfail).1
      obtain rfl := Option.some.inj (hother.symm.trans hsome)
      exact ⟨commands, here, source, number, line, harrive, hfail⟩
  · rintro ⟨commands, here, source, number, line, harrive, hfail⟩
    exact (herror failure).mpr (harrive.compileSources_eq hfail).1
  · intro commands final hpass
    obtain ⟨-, hcount, hfinal⟩ := hpass.compileSources_eq
    obtain ⟨hcounted, hsource⟩ := hpass.counted
    refine ⟨hstart.tallies hcount hfinal hcounted, ?_⟩
    rw [hsession, hfinal, hsource, hstart.compileStart_eq.2.2.2.2, Option.or_none]
  · intro commands here source number line failure harrive hfail
    obtain ⟨-, hcount, hhere⟩ := harrive.compileSources_eq hfail
    obtain ⟨hcounted, hsource⟩ := harrive.counted
    refine ⟨fun hplaced => ⟨hstart.tallies hcount (hhere hplaced) hcounted, ?_⟩, ?_, ?_⟩
    · rw [hsession, hhere hplaced, hsource]
    · rintro malformed rfl
      exact hfail.malformed_eq
    · rintro refusal rfl
      exact hfail.refused_eq hsource

/-- The second line of the last source is refused before its third line, which no reader accepts, is
looked at.  The source in between has no lines. -/
theorem earliest_fault_decides_sample :
    let compiler := Compiler.ofSettings ⟨true, false, 256⟩
    let sources := [⟨"Main", ["function Main.f 0", "eq", "call Main.g 1"]⟩, ⟨"Empty", []⟩,
      ⟨"Lib", ["// start", "pop constant 0", "jump"]⟩]
    compiler.StartsUp ∧
      (compiler.run sources).2 = .error (.refused ⟨.popConstant, .pop "constant" 0, "Lib"⟩) ∧
      ∃ commands session source number line,
        ArrivesAt compiler.opening sources commands session source number line ∧
        LineFails source.name number session line
          (.refused ⟨.popConstant, .pop "constant" 0, "Lib"⟩) ∧
        (compiler.run sources).1.Tallies commands ∧ commands.length = 3 ∧ source.name = "Lib" ∧
        readLine source.name number line = .ok (some (.pop "constant" 0)) := by
  intro compiler sources
  have hstart : compiler.StartsUp := by
    intro _
    have hwritable : Text.isWritable compiler.session.reset.stackBase = true := by decide +kernel
    exact ⟨_, congrArg Prod.snd (if_pos hwritable)⟩
  have hresult : (compiler.run sources).2 =
      .error (.refused ⟨.popConstant, .pop "constant" 0, "Lib"⟩) := by
    have hends : (compileIn compiler.session.reset true sources).failure =
        some (.refused ⟨.popConstant, .pop "constant" 0, "Lib"⟩) := by decide +kernel
    exact Compiler.run_eq_error hends
  obtain ⟨-, hfailure, -, htold⟩ := earliest_fault_decides compiler sources hstart
  obtain ⟨commands, session, source, number, line, harrive, hfail⟩ := (hfailure _).mp hresult
  obtain ⟨htallies, -, hrefused⟩ := htold _ _ _ _ _ _ harrive hfail
  obtain ⟨hname, hread⟩ := hrefused _ rfl
  have hcount : (compiler.run sources).1.count = 3 := by decide +kernel
  exact ⟨hstart, hresult, commands, session, source, number, line, harrive, hfail,
    (htallies rfl).1, (htallies rfl).1.count.symm.trans hcount, hname.symm, hread⟩

/-- A line that ends in a line feed is told without it. -/
theorem malformed_line_without_feed :
    ((Compiler.ofSettings ⟨false, false, 256⟩).run [⟨"Main", ["jump\n"]⟩]).2 =
        .error (.malformed ⟨.unknownWord "jump", "Main", 1, "jump"⟩) ∧
      (⟨.unknownWord "jump", "Main", 1, "jump"⟩ : Malformed).line ≠ "jump\n" := by
  refine ⟨Compiler.run_eq_error ?_, by decide⟩
  decide +kernel

end HackVm
