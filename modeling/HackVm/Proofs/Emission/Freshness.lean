import HackVm.Proofs.Emission.Labels
import HackVm.Proofs.Emission.Listing
import HackVm.Proofs.Text.Numerals

/-!
# Labels that are made up never collide

A session is used by a sequence of operations: commands are emitted or refused, start-up code is
emitted, and the settings are changed in between.  `labelsMade` are the labels that such a sequence
makes up, and no two of them are the same text, whatever the names of the functions are
(`labels_never_collide`).

The name of a function is arbitrary text, so the return of a call is told from others by the digits
at its end alone.  The invariant is on the counters: what an operation makes up is numbered after
everything the session has used before and within what it has used afterwards
(`perform_counters`), so labels of different operations have different numbers.
-/

namespace HackVm.Emit

open Hack Text

/-! ## Operations -/

/-- What can be done with a session. -/
inductive Operation where
  /-- Emits a command. -/
  | emit (command : Command)
  /-- Emits the start of a program. -/
  | bootstrap
  /-- Goes on with another source, or with none. -/
  | setSource (name : Option String)
  /-- Turns comments on or off. -/
  | setAnnotate (annotate : Bool)
  /-- Moves the stack. -/
  | setStackBase (base : Int)
  deriving DecidableEq, Repr

namespace Session

/-- Carries out one operation: the session after it, and its statements or the error. -/
def perform (session : Session) : Operation → Session × Except EmitError (List Statement)
  | .emit command => session.emit command
  | .bootstrap => session.bootstrap
  | .setSource name => ({ session with source := name }, .ok [])
  | .setAnnotate annotate => ({ session with annotate }, .ok [])
  | .setStackBase base => ({ session with stackBase := base }, .ok [])

/-- The labels that an operation makes up.  A call that fails to be written has made up its label
already, unless it failed at its comment. -/
def madeUp (session : Session) : Operation → List Symbol
  | .emit command =>
    if session.annotate && !command.isWritable then []
    else (session.labels command).filter Symbol.isMadeUp
  | .bootstrap => if isWritable session.stackBase then [session.nextReturn] else []
  | _ => []

/-- The labels that a sequence of operations makes up, in order. -/
def labelsMade (session : Session) : List Operation → List Symbol
  | [] => []
  | operation :: rest =>
    session.madeUp operation ++ (session.perform operation).1.labelsMade rest

end Session

/-! ## Numbers of labels -/

/-- The label is made up, and its number was used between two states of a session: comparisons are
counted before they take their number and calls afterwards. -/
def Symbol.IsNumbered (before after : Session) : Symbol → Prop
  | .comparison _ _ serial => before.comparisons < serial ∧ serial ≤ after.comparisons
  | .returnOf _ serial => before.calls ≤ serial ∧ serial < after.calls
  | _ => False

theorem Symbol.IsNumbered.mono {first before after last : Session} {symbol : Symbol}
    (h : symbol.IsNumbered before after)
    (hfirst : first.comparisons ≤ before.comparisons ∧ first.calls ≤ before.calls)
    (hlast : after.comparisons ≤ last.comparisons ∧ after.calls ≤ last.calls) :
    symbol.IsNumbered first last := by
  cases symbol with
  | comparison place operator serial =>
      exact ⟨Nat.lt_of_le_of_lt hfirst.1 h.1, Nat.le_trans h.2 hlast.1⟩
  | returnOf function serial =>
      exact ⟨Nat.le_trans hfirst.2 h.1, Nat.lt_of_lt_of_le h.2 hlast.2⟩
  | _ => exact h.elim

private theorem isNumbered_of_mem_comparisonLabels {session : Session} {comparison : Comparison}
    {symbol : Symbol} (h : symbol ∈ comparisonLabels comparison (session.comparisons + 1)) :
    symbol.IsNumbered session { session with comparisons := session.comparisons + 1 } := by
  obtain ⟨place, -, rfl⟩ := List.mem_map.mp h
  exact ⟨Nat.lt_succ_self _, Nat.le_refl _⟩

private theorem block_counters {session next : Session} {command : Command} {body : List Statement}
    (h : session.block command = .ok (next, body)) :
    session.comparisons ≤ next.comparisons ∧ session.calls ≤ next.calls := by
  cases moves_block h with
  | comparison => exact ⟨Nat.le_succ _, Nat.le_refl _⟩
  | call => exact ⟨Nat.le_refl _, Nat.le_succ _⟩
  | _ => exact ⟨Nat.le_refl _, Nat.le_refl _⟩

private theorem isNumbered_of_mem_labels {session next : Session} {command : Command}
    {body : List Statement} (h : session.block command = .ok (next, body)) {symbol : Symbol}
    (hmem : symbol ∈ session.labels command) (hmadeUp : symbol.isMadeUp = true) :
    symbol.IsNumbered session next := by
  cases block_eq_ok_iff.mp h with
  | @operate word operator hoperator =>
      rw [Session.labels, hoperator] at hmem
      cases operator with
      | eq => exact isNumbered_of_mem_comparisonLabels hmem
      | gt => exact isNumbered_of_mem_comparisonLabels hmem
      | lt => exact isNumbered_of_mem_comparisonLabels hmem
      | _ => exact absurd hmem (by simp)
  | label name =>
      rw [List.mem_singleton.mp hmem] at hmadeUp
      exact absurd hmadeUp (by simp)
  | function name locals =>
      rw [List.mem_singleton.mp hmem] at hmadeUp
      exact absurd hmadeUp (by simp)
  | call name arguments =>
      rw [List.mem_singleton.mp hmem]
      exact ⟨Nat.le_refl _, Nat.lt_succ_self _⟩
  | _ => exact absurd hmem (by simp [Session.labels])

private theorem labels_of_refused {session : Session} {command : Command} {reason : Reason}
    (h : session.block command = .error reason) : session.labels command = [] := by
  unfold Session.block at h
  cases command with
  | arithmetic word =>
      dsimp only [Session.labels] at h ⊢
      split at h
      · exact absurd h (by simp)
      · next hoperator => rw [hoperator]
  | push word index => rfl
  | pop word index => rfl
  | _ => exact absurd h (by simp)

/-- What an operation makes up is numbered between the counters before it and after it, and
counters never go back. -/
theorem perform_counters (session : Session) (operation : Operation) :
    (session.comparisons ≤ (session.perform operation).1.comparisons ∧
      session.calls ≤ (session.perform operation).1.calls) ∧
    ∀ symbol ∈ session.madeUp operation,
      symbol.IsNumbered session (session.perform operation).1 := by
  cases operation with
  | emit command =>
      simp only [Session.perform, Session.emit, Session.madeUp]
      by_cases hcomment : (session.annotate && !command.isWritable) = true
      · simp [hcomment]
      · simp only [hcomment, Bool.false_eq_true, if_false]
        cases hblock : session.block command with
        | error reason => simp [labels_of_refused hblock]
        | ok result =>
            obtain ⟨next, body⟩ := result
            refine ⟨block_counters hblock, fun symbol hmem => ?_⟩
            obtain ⟨hlabel, hmadeUp⟩ := List.mem_filter.mp hmem
            exact isNumbered_of_mem_labels hblock hlabel hmadeUp
  | bootstrap =>
      simp only [Session.perform, Session.bootstrap, Session.madeUp]
      by_cases hwritable : isWritable session.stackBase = true
      · simp only [hwritable, if_true]
        refine ⟨⟨Nat.le_refl _, Nat.le_succ _⟩, fun symbol hmem => ?_⟩
        rw [List.mem_singleton.mp hmem]
        exact ⟨Nat.le_refl _, Nat.lt_succ_self _⟩
      · simp [hwritable]
  | _ =>
      refine ⟨⟨Nat.le_refl _, Nat.le_refl _⟩, fun symbol hmem => ?_⟩
      exact absurd hmem (by simp [Session.madeUp])

private theorem labelsMade_isNumbered {session : Session} {operations : List Operation}
    {symbol : Symbol} (hmem : symbol ∈ session.labelsMade operations) :
    ∃ last : Session, symbol.IsNumbered session last := by
  induction operations generalizing session with
  | nil => simp [Session.labelsMade] at hmem
  | cons operation rest ih =>
      obtain ⟨hcounters, hmade⟩ := perform_counters session operation
      rcases List.mem_append.mp hmem with hfirst | hlater
      · exact ⟨_, hmade symbol hfirst⟩
      · obtain ⟨last, hlast⟩ := ih hlater
        exact ⟨last, hlast.mono hcounters ⟨Nat.le_refl _, Nat.le_refl _⟩⟩

/-! ## Texts of labels -/

/-- A return has a dot in its label, and a place of a comparison has none. -/
private theorem comparison_ne_returnOf (place : Place) (operator : Comparison) (function : String)
    (serial other : Nat) :
    (Symbol.comparison place operator serial).text ≠ (Symbol.returnOf function other).text := by
  intro h
  have hdot : '.' ∈ (Symbol.comparison place operator serial).text.toList := by
    rw [h, toList_returnOf]
    simp
  exact dot_not_mem_comparison place operator serial hdot

/-- Labels whose numbers were used one after the other are different texts. -/
private theorem text_ne_of_isNumbered {before middle after : Session} {first second : Symbol}
    (hfirst : first.IsNumbered before middle) (hsecond : second.IsNumbered middle after) :
    first.text ≠ second.text := by
  intro htext
  cases first with
  | comparison place operator serial =>
      cases second with
      | comparison otherPlace otherOperator other =>
          have hlist := congrArg String.toList htext
          rw [toList_comparison, toList_comparison] at hlist
          obtain ⟨-, rfl⟩ := append_natural_inj (by decide) hlist
          exact absurd (Nat.lt_of_le_of_lt hfirst.2 hsecond.1) (Nat.lt_irrefl _)
      | returnOf function other => exact comparison_ne_returnOf _ _ _ _ _ htext
      | _ => exact hsecond
  | returnOf function serial =>
      cases second with
      | comparison place operator other => exact comparison_ne_returnOf _ _ _ _ _ htext.symm
      | returnOf otherFunction other =>
          have hlist := congrArg String.toList htext
          rw [toList_returnOf, toList_returnOf] at hlist
          obtain ⟨-, rfl⟩ := append_natural_inj (by decide) hlist
          exact absurd (Nat.lt_of_lt_of_le hfirst.2 hsecond.1) (Nat.lt_irrefl _)
      | _ => exact hsecond
  | _ => exact hfirst

private theorem text_comparison_inj {place other : Place} {operator : Comparison} {serial : Nat}
    (h : (Symbol.comparison place operator serial).text =
      (Symbol.comparison other operator serial).text) : place = other := by
  have hlist := congrArg String.toList h
  rw [toList_comparison, toList_comparison] at hlist
  have hplaces : place.text.toList = other.text.toList :=
    List.append_cancel_right (append_natural_inj (by decide) hlist).1
  revert hplaces
  cases place <;> cases other <;> decide

private theorem nodup_comparisonLabels (comparison : Comparison) (serial : Nat) :
    ((comparisonLabels comparison serial).map Symbol.text).Nodup := by
  rw [comparisonLabels, List.map_map]
  refine List.Pairwise.map _ (R := (· ≠ ·)) ?_ ?_
  · exact fun place other hne htext => hne (text_comparison_inj htext)
  · cases comparison <;> decide

private theorem nodup_labels (session : Session) (command : Command) :
    ((session.labels command).map Symbol.text).Nodup := by
  cases command with
  | arithmetic word =>
      dsimp only [Session.labels]
      split
      · exact nodup_comparisonLabels .eq _
      · exact nodup_comparisonLabels .gt _
      · exact nodup_comparisonLabels .lt _
      · simp
  | _ => simp [Session.labels]

private theorem nodup_madeUp (session : Session) (operation : Operation) :
    ((session.madeUp operation).map Symbol.text).Nodup := by
  cases operation with
  | emit command =>
      dsimp only [Session.madeUp]
      split
      · simp
      · exact (List.filter_sublist.map _).nodup (nodup_labels session command)
  | bootstrap =>
      dsimp only [Session.madeUp]
      split <;> simp
  | _ => simp [Session.madeUp]

theorem nodup_labelsMade (session : Session) (operations : List Operation) :
    ((session.labelsMade operations).map Symbol.text).Nodup := by
  induction operations generalizing session with
  | nil => simp [Session.labelsMade]
  | cons operation rest ih =>
      rw [Session.labelsMade, List.map_append, List.nodup_append]
      refine ⟨nodup_madeUp session operation, ih _, ?_⟩
      intro text hfirst other hlater
      obtain ⟨symbol, hsymbol, rfl⟩ := List.mem_map.mp hfirst
      obtain ⟨later, hmem, rfl⟩ := List.mem_map.mp hlater
      obtain ⟨last, hlast⟩ := labelsMade_isNumbered hmem
      exact text_ne_of_isNumbered ((perform_counters session operation).2 symbol hsymbol) hlast

/-! ## Labels in what is emitted -/

private theorem declaredIn_annotation (session : Session) (text : String) :
    declaredIn (session.annotation text) = [] := by
  rcases session.annotation_cases text with hcomment | hnone
  · rw [hcomment]
    rfl
  · rw [hnone]
    rfl

private theorem load_not_mem_comment (session : Session) (text : String) (symbol : Symbol) :
    Statement.load symbol ∉ session.annotation text := by
  rcases session.annotation_cases text with hcomment | hnone
  · simp [hcomment]
  · simp [hnone]

private theorem emit_labels {session next : Session} {command : Command}
    {statements : List Statement} (h : session.emit command = (next, .ok statements)) :
    (declaredIn statements).filter Symbol.isMadeUp = session.madeUp (.emit command) ∧
      ∀ symbol, .load symbol ∈ statements → symbol.isMadeUp = true →
        symbol ∈ declaredIn statements := by
  have hcomment : (session.annotate && !command.isWritable) = false := by
    rw [Bool.eq_false_iff]
    intro hcomment
    simp [Session.emit, hcomment] at h
  obtain ⟨body, hblock, rfl, -⟩ := emit_eq_ok h
  rw [declaredIn_append, declaredIn_annotation, List.nil_append]
  constructor
  · rw [declaredIn_block hblock, Session.madeUp, hcomment, if_neg Bool.false_ne_true]
  · intro symbol hload hmadeUp
    rcases List.mem_append.mp hload with hload | hload
    · exact absurd hload (load_not_mem_comment session _ symbol)
    · exact mem_declaredIn_of_loaded hblock hmadeUp hload

private theorem bootstrap_labels {session next : Session} {statements : List Statement}
    (h : session.bootstrap = (next, .ok statements)) :
    (declaredIn statements).filter Symbol.isMadeUp = session.madeUp .bootstrap ∧
      ∀ symbol, .load symbol ∈ statements → symbol.isMadeUp = true →
        symbol ∈ declaredIn statements := by
  unfold Session.bootstrap at h
  split at h
  · next hwritable =>
    obtain ⟨-, hstatements⟩ := Prod.mk.inj h
    obtain rfl := Except.ok.inj hstatements
    have hdeclared : declaredIn (bootstrapBlock session.stackBase session.nextReturn) =
        [session.nextReturn] := rfl
    rw [declaredIn_append, declaredIn_annotation, List.nil_append, hdeclared]
    constructor
    · rw [Session.madeUp, if_pos hwritable]
      rfl
    · intro symbol hload hmadeUp
      rcases List.mem_append.mp hload with hload | hload
      · exact absurd hload (load_not_mem_comment session _ symbol)
      · rw [bootstrapBlock] at hload
        rcases List.mem_append.mp hload with hload | hload
        · simp only [fetchAddress, store, assign, List.cons_append, List.nil_append, List.mem_cons,
            List.not_mem_nil, Statement.load.injEq, reduceCtorEq, or_false, false_or] at hload
          rcases hload with rfl | rfl <;> simp at hmadeUp
        · have hcall : session.block (.call entryFunction 0) =
              .ok (_, callBlock entryFunction 0 session.nextReturn) := rfl
          exact (holds_block hcall _ hload).mem_labels hmadeUp
  · exact absurd (Prod.mk.inj h).2 (by simp)

/-- The labels that an operation declares are those it makes up, and it refers to no others. -/
theorem perform_labels {session next : Session} {operation : Operation}
    {statements : List Statement} (h : session.perform operation = (next, .ok statements)) :
    (declaredIn statements).filter Symbol.isMadeUp = session.madeUp operation ∧
      ∀ symbol, .load symbol ∈ statements → symbol.isMadeUp = true →
        symbol ∈ declaredIn statements := by
  cases operation with
  | emit command => exact emit_labels h
  | bootstrap => exact bootstrap_labels h
  | _ =>
      obtain rfl := Except.ok.inj (Prod.mk.inj h).2
      exact ⟨rfl, fun symbol hload => absurd hload (by simp)⟩

/-- Over any operations on a fresh session, the labels that are made up are all different texts:
the labels of comparisons, and the returns of calls and of start-up code, also where the emission
failed afterwards.  What is emitted declares exactly the labels that its operation makes up, and
refers to no made-up label but those.  A name that the program wrote is not made up, even if it is
spelled like one that is. -/
theorem labels_never_collide (annotate : Bool) (stackBase : Int) (operations : List Operation) :
    (((Session.fresh annotate stackBase).labelsMade operations).map Symbol.text).Nodup ∧
      ∀ (session next : Session) (operation : Operation) (statements : List Statement),
        session.perform operation = (next, .ok statements) →
          (declaredIn statements).filter Symbol.isMadeUp = session.madeUp operation ∧
          ∀ symbol, .load symbol ∈ statements → symbol.isMadeUp = true →
            symbol ∈ declaredIn statements :=
  ⟨nodup_labelsMade _ operations, fun _ _ _ _ h => perform_labels h⟩

private theorem fresh_emit_gt : (Session.fresh false 256).perform (.emit (.arithmetic "gt")) =
    ({ Session.fresh false 256 with comparisons := 1 }, .ok (comparisonBlock .gt 1)) := by
  rfl

/-- The function is named like a return, and the comparison makes up five labels. -/
theorem labels_never_collide_sample :
    let session := Session.fresh false 256
    let operations := [.bootstrap, .emit (.function "Bootstrap$ret.1" 0), .emit (.call "f" 0)]
    session.labelsMade operations =
        [.returnOf "Bootstrap" 0, .returnOf "Bootstrap$ret.1" 1] ∧
      ((session.labelsMade operations).map Symbol.text).Nodup ∧
      ∃ next statements, session.perform (.emit (.arithmetic "gt")) = (next, .ok statements) ∧
        (declaredIn statements).filter Symbol.isMadeUp = comparisonLabels .gt 1 := by
  intro session operations
  obtain ⟨hnodup, hemitted⟩ := labels_never_collide false 256 operations
  have hlabels : session.madeUp (.emit (.arithmetic "gt")) = comparisonLabels .gt 1 := by
    decide +kernel
  refine ⟨by decide +kernel, hnodup, _, _, fresh_emit_gt, ?_⟩
  exact (hemitted _ _ _ _ fresh_emit_gt).1.trans hlabels

end HackVm.Emit
