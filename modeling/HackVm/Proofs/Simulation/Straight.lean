import HackVm.Proofs.Assembly.Layout
import HackVm.Proofs.Reference.Ram

/-!
# Code without jumps

Statements that do not jump transform the two registers of the machine and its memory, whatever
the address at which they stand.  `exec` is that transformation; it fails where the machine would
leave its memory.  `reaches_of_exec` says that the machine, at the first of the statements in
program memory, comes to the place after the last of them with the transformed registers and memory.

`Reaches` forgets the number of steps.  Jumps are single steps (`step_jump`).
-/

namespace HackVm

open Emit Hack

/-! ## Steps of the machine -/

/-- The machine comes from one state to another without a fault. -/
def Reaches (rom : Array Instruction) (first last : State) : Prop :=
  ∃ count, State.stepTimes rom count first = (last, none)

namespace Reaches

variable {rom : Array Instruction}

theorem refl (state : State) : Reaches rom state state :=
  ⟨0, rfl⟩

theorem step {first second last : State} (hstep : State.step rom first = (second, none))
    (hrest : Reaches rom second last) : Reaches rom first last := by
  obtain ⟨count, hcount⟩ := hrest
  refine ⟨count + 1, ?_⟩
  rw [State.stepTimes, hstep]
  exact hcount

theorem trans {first second last : State} (hfirst : Reaches rom first second)
    (hsecond : Reaches rom second last) : Reaches rom first last := by
  obtain ⟨count, hcount⟩ := hfirst
  induction count generalizing first with
  | zero =>
      obtain ⟨rfl, -⟩ := Prod.mk.inj hcount
      exact hsecond
  | succ count ih =>
      rw [State.stepTimes] at hcount
      split at hcount
      · next next hstep => exact .step hstep (ih hcount)
      · exact absurd (Prod.mk.inj hcount).2 (by simp)

end Reaches

/-! ## Registers and memory -/

/-- What code without jumps works on: the registers of the machine, and its memory. -/
structure Core where
  a : Nat
  d : Word
  ram : Ram

namespace Core

/-- The machine at an address of the program. -/
def state (core : Core) (pc steps : Nat) : State :=
  ⟨core.a, core.d, pc, core.ram.cells, steps⟩

/-- The operand of a computation. -/
def operand? (core : Core) (computation : Computation) : Option Word :=
  if computation.readsMemory then core.ram.read? core.a else some (BitVec.ofNat 16 core.a)

/-- The memory after a word was computed. -/
def written? (core : Core) (destination : Destination) (value : Word) : Option Ram :=
  if destination.m then core.ram.write? core.a value else some core.ram

/-- Computes without a jump. -/
def compute (core : Core) (destination : Destination) (computation : Computation) :
    Option Core := do
  let operand ← core.operand? computation
  let value := computation.eval core.d operand
  let ram ← core.written? destination value
  some ⟨if destination.a then value.toNat else core.a, if destination.d then value else core.d, ram⟩

end Core

private theorem ofInt_toNat (word : Word) : BitVec.ofInt 16 (word.toNat : Int) = word := by
  simp

private theorem step_compute_eq {rom : Array Instruction} {core : Core} {pc steps : Nat}
    {destination : Destination} {computation : Computation} {jump : Option Jump} {operand : Word}
    (hrom : rom[pc]? = some (.compute destination computation jump))
    (hoperand : core.operand? computation = some operand) :
    State.step rom (core.state pc steps) =
      (core.state pc steps).compute destination computation jump operand := by
  unfold State.step
  rw [show rom[(core.state pc steps).pc]? = _ from hrom]
  dsimp only
  unfold Core.operand? at hoperand
  split at hoperand
  · next hreads =>
    rw [if_pos hreads, show (core.state pc steps).memory[(core.state pc steps).a]? = _ from
      Ram.getElem?_cells hoperand]
    dsimp only
    rw [ofInt_toNat]
  · next hreads =>
    rw [if_neg hreads, ← Option.some.inj hoperand]
    rfl

/-- One computing instruction. -/
theorem step_compute {rom : Array Instruction} {core next : Core} {pc steps : Nat}
    {destination : Destination} {computation : Computation}
    (hrom : rom[pc]? = some (.compute destination computation none))
    (hcompute : core.compute destination computation = some next) :
    State.step rom (core.state pc steps) = (next.state (pc + 1) steps, none) := by
  unfold Core.compute at hcompute
  obtain ⟨operand, hoperand, hcompute⟩ := Option.bind_eq_some_iff.mp hcompute
  obtain ⟨ram, hram, hnext⟩ := Option.bind_eq_some_iff.mp hcompute
  rw [step_compute_eq hrom hoperand, ← Option.some.inj hnext]
  unfold State.compute
  unfold Core.written? at hram
  split at hram
  · next hm =>
    obtain ⟨haddress, hcells⟩ := Ram.cells_of_write? hram
    rw [if_pos hm, dif_pos (show (core.state pc steps).a < memorySize from haddress)]
    simp only [Core.state, State.settle, hcells, Option.any_none, Bool.false_eq_true, if_false]
  · next hm =>
    rw [if_neg hm, ← Option.some.inj hram]
    simp only [Core.state, State.settle, Option.any_none, Bool.false_eq_true, if_false]

/-- One loading instruction. -/
theorem step_load {rom : Array Instruction} {core : Core} {pc steps value : Nat}
    (hrom : rom[pc]? = some (.load value)) :
    State.step rom (core.state pc steps) =
      (Core.state { core with a := value } (pc + 1) steps, none) := by
  unfold State.step
  rw [show rom[(core.state pc steps).pc]? = _ from hrom]
  rfl

/-- One jumping instruction. -/
theorem step_jump {rom : Array Instruction} {core : Core} {pc steps : Nat}
    {computation : Computation} {jump : Jump} {operand : Word}
    (hrom : rom[pc]? = some (.compute ⟨false, false, false⟩ computation (some jump)))
    (hoperand : core.operand? computation = some operand) :
    State.step rom (core.state pc steps) =
      (core.state (if jump.isTaken (computation.eval core.d operand) then core.a else pc + 1) steps,
        none) := by
  rw [step_compute_eq hrom hoperand]
  rfl

/-! ## Straight execution -/

/-- Carries out statements that do not jump, for given meanings of the symbols. -/
def exec (meaning : Symbol → Nat) : List Statement → Core → Option Core
  | [], core => some core
  | .comment _ :: rest, core => exec meaning rest core
  | .declare _ :: rest, core => exec meaning rest core
  | .load symbol :: rest, core => exec meaning rest { core with a := meaning symbol }
  | .compute destination computation none :: rest, core => do
    let next ← core.compute destination computation
    exec meaning rest next
  | .compute _ _ (some _) :: _, _ => none

@[simp] theorem exec_nil (meaning : Symbol → Nat) (core : Core) :
    exec meaning [] core = some core := by
  rw [exec]

@[simp] theorem exec_declare (meaning : Symbol → Nat) (symbol : Symbol) (rest : List Statement)
    (core : Core) : exec meaning (.declare symbol :: rest) core = exec meaning rest core := by
  rw [exec]

@[simp] theorem exec_load (meaning : Symbol → Nat) (symbol : Symbol) (rest : List Statement)
    (core : Core) :
    exec meaning (.load symbol :: rest) core =
      exec meaning rest { core with a := meaning symbol } := by
  rw [exec]

@[simp] theorem exec_assign (meaning : Symbol → Nat) (destination : Destination)
    (computation : Computation) (rest : List Statement) (core : Core) :
    exec meaning (assign destination computation :: rest) core =
      (core.compute destination computation).bind (exec meaning rest) := by
  rw [assign, exec]
  rfl

theorem exec_append (meaning : Symbol → Nat) (first second : List Statement) (core : Core) :
    exec meaning (first ++ second) core =
      (exec meaning first core).bind (exec meaning second) := by
  induction first generalizing core with
  | nil => rfl
  | cons statement rest ih =>
      cases statement with
      | comment text => exact ih core
      | declare symbol => exact ih core
      | load symbol => exact ih _
      | compute destination computation jump =>
          cases jump with
          | none =>
              simp only [List.cons_append, exec, Option.bind_eq_bind, Option.bind_assoc]
              exact congrArg _ (funext ih)
          | some jump => rfl

/-- Statements are carried out one list after the other. -/
theorem exec_trans {meaning : Symbol → Nat} {first second : List Statement}
    {core middle last : Core} (hfirst : exec meaning first core = some middle)
    (hsecond : exec meaning second middle = some last) :
    exec meaning (first ++ second) core = some last := by
  rw [exec_append, hfirst]
  exact hsecond

/-- The machine carries out statements that stand in program memory. -/
theorem reaches_of_exec {image : Image} {statements : List Statement} {address steps : Nat}
    {core last : Core} (hlaid : image.LaysOut address statements)
    (hexec : exec image.meaning statements core = some last) :
    Reaches image.rom (core.state address steps)
      (last.state (address + codeSize statements) steps) := by
  induction statements generalizing address core with
  | nil =>
      obtain rfl := Option.some.inj hexec
      exact .refl _
  | cons statement rest ih =>
      cases statement with
      | comment text => simpa [isCode] using ih hlaid hexec
      | declare symbol => simpa [isCode] using ih hlaid.2 hexec
      | load symbol =>
          refine .step (step_load hlaid.1) ?_
          rw [codeSize_cons, isCode, if_pos rfl,
            show address + (codeSize rest + 1) = address + 1 + codeSize rest by omega]
          exact ih hlaid.2 hexec
      | compute destination computation jump =>
          cases jump with
          | none =>
              obtain ⟨next, hnext, hrest⟩ := Option.bind_eq_some_iff.mp hexec
              refine .step (step_compute hlaid.1 hnext) ?_
              rw [codeSize_cons, isCode, if_pos rfl,
                show address + (codeSize rest + 1) = address + 1 + codeSize rest by omega]
              exact ih hlaid.2 hrest
          | some jump => exact absurd hexec (by simp [exec])

attribute [irreducible] exec

end HackVm
