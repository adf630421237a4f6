import HackVm.Proofs.Machine.WellFormed

/-!
# Runs in pieces

A run counts its steps in the state and compares the count with its limit, so a run can be resumed
by another one with a larger limit.  Made in two pieces or at once, it ends in the same state and in
the same way (`run_in_pieces`).

A run walks (`Walks`) until its limit is reached or until it halts (`Halts`): at its target, past
the program, or before a step that has a fault.  The limit is asked for first.  A run that comes to
its target with the last step of its limit has therefore timed out, and only the resumed run finds
that it has arrived.

```text
first piece    count of steps             second piece
timed out      at the limit, or past it   walks on with what is left of its own limit
halted         below the limit            halts in the same place without a step
```
-/

namespace HackVm.Hack.State

/-! ## Walking and halting -/

/-- Why a run that has steps left makes none. -/
inductive Halts (rom : Array Instruction) (target : Option Nat) (state : State) :
    Except Index.Fault Stop → Prop
  | label (htarget : target = some state.pc) : Halts rom target state (.ok .label)
  | finish (htarget : target ≠ some state.pc) (hpast : rom.size ≤ state.pc) :
      Halts rom target state (.ok .finish)
  | fault {fault : Index.Fault} (htarget : target ≠ some state.pc) (hinside : state.pc < rom.size)
      (hstep : step rom state = (state, some fault)) : Halts rom target state (.error fault)

/-- The run makes `count` steps, each of them counted and none of them made at the target. -/
inductive Walks (rom : Array Instruction) (target : Option Nat) : Nat → State → State → Prop
  | rest (state : State) : Walks rom target 0 state state
  | step {count : Nat} {state next final : State} (htarget : target ≠ some state.pc)
      (hstep : step rom state = (next, none))
      (hwalk : Walks rom target count { next with steps := next.steps + 1 } final) :
      Walks rom target (count + 1) state final

variable {rom : Array Instruction} {target : Option Nat} {state next final : State}

/-- A step does not count itself. -/
theorem Advances.steps_eq (h : Advances rom state next) : next.steps = state.steps := by
  cases h with
  | load => rfl
  | register => rfl
  | cell => rfl

theorem Walks.steps_eq {count : Nat} (h : Walks rom target count state final) :
    final.steps = state.steps + count := by
  induction h with
  | rest state => rfl
  | @step count state next final _ hstep _ ih =>
      calc final.steps
          = next.steps + 1 + count := ih
        _ = state.steps + 1 + count := by rw [(advances_of_step hstep).steps_eq]
        _ = state.steps + (count + 1) := by omega

/-- A state halts the run, or the run makes a step. -/
theorem halts_or_steps (rom : Array Instruction) (target : Option Nat) (state : State) :
    (∃ outcome, Halts rom target state outcome) ∨
      target ≠ some state.pc ∧ ∃ next, step rom state = (next, none) := by
  by_cases htarget : target = some state.pc
  · exact .inl ⟨_, .label htarget⟩
  by_cases hpast : rom.size ≤ state.pc
  · exact .inl ⟨_, .finish htarget hpast⟩
  rcases step_cases rom state with ⟨next, hstep, -⟩ | ⟨fault, hstep, -⟩
  · exact .inr ⟨htarget, next, hstep⟩
  · exact .inl ⟨_, .fault htarget (Nat.lt_of_not_le hpast) hstep⟩

/-- A run uses up its budget, or halts before that. -/
theorem walks_or_halts (rom : Array Instruction) (target : Option Nat) (budget : Nat)
    (state : State) :
    (∃ final, Walks rom target budget state final) ∨
      ∃ count final outcome, count < budget ∧ Walks rom target count state final ∧
        Halts rom target final outcome := by
  induction budget generalizing state with
  | zero => exact .inl ⟨state, .rest state⟩
  | succ budget ih =>
      rcases halts_or_steps rom target state with ⟨outcome, hhalts⟩ | ⟨htarget, next, hstep⟩
      · exact .inr ⟨0, state, outcome, Nat.succ_pos budget, .rest state, hhalts⟩
      · rcases ih { next with steps := next.steps + 1 } with
          ⟨final, hwalk⟩ | ⟨count, final, outcome, hcount, hwalk, hhalts⟩
        · exact .inl ⟨final, .step htarget hstep hwalk⟩
        · exact .inr ⟨count + 1, final, outcome, Nat.succ_lt_succ hcount,
            .step htarget hstep hwalk, hhalts⟩

/-! ## Runs follow walks -/

/-- After a walk the run goes on with what is left of its budget. -/
theorem Walks.runFor_eq {count : Nat} (h : Walks rom target count state final) (budget : Nat) :
    runFor rom target (count + budget) state = runFor rom target budget final := by
  induction h with
  | rest state => rw [Nat.zero_add]
  | @step count state next final htarget hstep _ ih =>
      have hinside : ¬ rom.size ≤ state.pc := Nat.not_le.mpr (advances_of_step hstep).lt_size
      rw [Nat.add_right_comm, runFor, if_neg (by simpa using htarget), if_neg hinside, hstep]
      exact ih

/-- Where the run halts, any budget but zero gives the same answer. -/
theorem Halts.runFor_eq {outcome : Except Index.Fault Stop} (h : Halts rom target state outcome)
    {budget : Nat} (hbudget : 0 < budget) :
    runFor rom target budget state = (state, outcome) := by
  obtain ⟨budget, rfl⟩ := Nat.exists_eq_succ_of_ne_zero (Nat.ne_of_gt hbudget)
  cases h with
  | label htarget => rw [runFor, if_pos (by simpa using htarget)]
  | finish htarget hpast => rw [runFor, if_neg (by simpa using htarget), if_pos hpast]
  | fault htarget hinside hstep =>
      rw [runFor, if_neg (by simpa using htarget), if_neg (Nat.not_le.mpr hinside), hstep]

/-! ## Resuming -/

/-- A run to a smaller limit and then to a larger one is a run to the larger one.  The first has
used up its limit, or it has halted and was the whole run already. -/
theorem run_resumed (rom : Array Instruction) (target : Option Nat) {limit larger : Nat}
    (hle : limit ≤ larger) (state : State) :
    let first := state.run rom target limit
    first.1.run rom target larger = state.run rom target larger ∧
      (first.2 = .ok .timeout ∧ limit ≤ first.1.steps ∨
        Halts rom target first.1 first.2 ∧ first = state.run rom target larger) := by
  intro first
  rcases walks_or_halts rom target (limit - state.steps) state with
    ⟨middle, hwalk⟩ | ⟨count, final, outcome, hcount, hwalk, hhalts⟩
  · have hfirst : first = (middle, .ok .timeout) := hwalk.runFor_eq 0
    have hsteps := hwalk.steps_eq
    have hwhole : state.run rom target larger = middle.run rom target larger := by
      have hbudget : larger - state.steps =
          (limit - state.steps) + (larger - middle.steps) := by omega
      rw [run, hbudget, hwalk.runFor_eq, run]
    have hlimit : limit ≤ middle.steps := by omega
    rw [hfirst]
    exact ⟨hwhole.symm, .inl ⟨rfl, hlimit⟩⟩
  · have hsteps := hwalk.steps_eq
    -- What the run does to any limit that is not below the first one.
    have hrun : ∀ bound, limit ≤ bound → state.run rom target bound = (final, outcome) := by
      intro bound hbound
      have hbudget : bound - state.steps = count + (bound - final.steps) := by omega
      rw [run, hbudget, hwalk.runFor_eq, hhalts.runFor_eq (by omega)]
    have hfirst : first = (final, outcome) := hrun limit (Nat.le_refl limit)
    have hagain : final.run rom target larger = (final, outcome) :=
      hhalts.runFor_eq (by omega)
    rw [hfirst, hrun larger hle]
    exact ⟨hagain, .inr ⟨hhalts, rfl⟩⟩

/-- Running to a limit and then on to a larger one ends in the same state, with the same reason to
stop or the same fault, as running to the larger limit at once.  The first run has timed out, with
its steps used up, or it has halted at the label, at the end of the program or before a fault, and
has done all of it. -/
theorem run_in_pieces {image : Image} {label : Option String} {target : Option Nat}
    (htarget : image.target? label = some target) {limit larger : Int} (hle : limit ≤ larger)
    (state : State) :
    let first := state.runTo image label limit
    first.1.runTo image label larger = state.runTo image label larger ∧
      (first.2 = .ok .timeout ∧ limit ≤ first.1.steps ∨
        ∃ outcome, first.2 = outcome.mapError .fault ∧ Halts image.rom target first.1 outcome ∧
          first = state.runTo image label larger) := by
  obtain ⟨hresumed, hended⟩ := run_resumed image.rom target (Int.toNat_le_toNat hle) state
  simp only [runTo_of_target htarget]
  refine ⟨by rw [hresumed], ?_⟩
  rcases hended with ⟨htimeout, hlimit⟩ | ⟨hhalts, hwhole⟩
  · exact .inl ⟨by rw [htimeout]; rfl, Int.toNat_le.mp hlimit⟩
  · exact .inr ⟨_, rfl, hhalts, by rw [hwhole]⟩

/-- A program with a label on its way, which then stores a word where there is no memory. -/
def waysideLabel : Image :=
  ⟨#[.compute ⟨false, false, true⟩ (.operand .a) none, .load 40000,
    .compute ⟨false, true, false⟩ .d none], [("HERE", 1)], []⟩

/-- The first run comes to the label with its last step and times out there.  Without a label it
comes to the fault before its limit. -/
theorem run_in_pieces_sample :
    (Image.load "D=A\n(HERE)\n@40000\nM=D").toOption = some waysideLabel ∧
      (let first := State.initial.runTo waysideLabel (some "HERE") 1
      first.2 = .ok .timeout ∧ first.1.pc = 1 ∧
        first.1.runTo waysideLabel (some "HERE") 9 =
          State.initial.runTo waysideLabel (some "HERE") 9 ∧
        (State.initial.runTo waysideLabel (some "HERE") 9).2 = .ok .label) ∧
      (let first := State.initial.runTo waysideLabel none 4
      first.2 = .error (.fault ⟨.write, 40000⟩) ∧ first.1.steps = 2 ∧
        first = State.initial.runTo waysideLabel none 9 ∧
        first.1.runTo waysideLabel none 9 = State.initial.runTo waysideLabel none 9) := by
  have hhere : waysideLabel.target? (some "HERE") = some (some 1) := by decide +kernel
  have hnone : waysideLabel.target? none = some none := rfl
  have hfault : (State.initial.runTo waysideLabel none 4).2 = .error (.fault ⟨.write, 40000⟩) := rfl
  obtain ⟨harrives, -⟩ := run_in_pieces hhere (show (1 : Int) ≤ 9 by decide) .initial
  obtain ⟨hresumed, hended⟩ := run_in_pieces hnone (show (4 : Int) ≤ 9 by decide) .initial
  refine ⟨by decide +kernel, ⟨rfl, rfl, harrives, rfl⟩, hfault, rfl, ?_, hresumed⟩
  rcases hended with ⟨htimeout, -⟩ | ⟨-, -, -, hwhole⟩
  · exact absurd (hfault.symm.trans htimeout) (by simp)
  · exact hwhole

end HackVm.Hack.State
