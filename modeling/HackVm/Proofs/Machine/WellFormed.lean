import HackVm.Hack.Machine

/-!
# What can become of a machine

A machine that holds a program is stepped, run and poked, in any order.  Its state stays well
formed: cells and registers hold words, and an address is never larger than a word, the length of
the program or a number that the program loads (`WellFormed`).

A step has a fault when the program counter is past the program, or when the instruction uses
memory at an address where there is none; then nothing has changed (`Fails`).  A run never steps
past the program, so only the second can happen to it.

`step_cases` says once what a step does, and everything else is derived from it.  What a step keeps
a run keeps as well (`runFor_keeps`).
-/

namespace HackVm.Hack

/-! ## Numbers in a program -/

/-- The number that an instruction loads. -/
def Instruction.loaded? : Instruction → Option Nat
  | .load value => some value
  | .compute _ _ _ => none

/-- The instruction reads or writes the cell that `A` points to. -/
def Instruction.usesMemory : Instruction → Bool
  | .load _ => false
  | .compute destination computation _ => computation.readsMemory || destination.m

/-- The largest number that a program loads, or zero if it loads none. -/
def largestLoad (rom : Array Instruction) : Nat :=
  (rom.toList.filterMap Instruction.loaded?).max?.getD 0

/-- The largest of all words, the length of the program and the numbers that it loads. -/
def addressBound (rom : Array Instruction) : Nat :=
  max 65535 (max rom.size (largestLoad rom))

theorem le_addressBound_of_load {rom : Array Instruction} {place value : Nat}
    (h : rom[place]? = some (.load value)) : value ≤ addressBound rom := by
  have hmem : Instruction.load value ∈ rom.toList := by
    rw [← Array.getElem?_toList] at h
    exact List.mem_of_getElem? h
  have hloaded : value ∈ rom.toList.filterMap Instruction.loaded? :=
    List.mem_filterMap.mpr ⟨_, hmem, rfl⟩
  have hle : value ≤ largestLoad rom := List.le_max?_getD_of_mem hloaded
  unfold addressBound
  omega

namespace State

/-! ## One step -/

/-- The fault of the next step: the program is over, or its instruction uses memory where there is
none.  What is read is read before anything is written. -/
inductive Fails (rom : Array Instruction) (state : State) : Index.Fault → Prop
  | ended (hpc : rom.size ≤ state.pc) : Fails rom state ⟨.read, state.pc⟩
  | read {destination : Destination} {computation : Computation} {jump : Option Jump}
      (hinstruction : rom[state.pc]? = some (.compute destination computation jump))
      (hreads : computation.readsMemory = true) (haddress : memorySize ≤ state.a) :
      Fails rom state ⟨.read, state.a⟩
  | write {destination : Destination} {computation : Computation} {jump : Option Jump}
      (hinstruction : rom[state.pc]? = some (.compute destination computation jump))
      (hreads : computation.readsMemory = false) (hwrites : destination.m = true)
      (haddress : memorySize ≤ state.a) : Fails rom state ⟨.write, state.a⟩

/-- What a step without a fault does: it loads a number, or it puts a word where the instruction
says. -/
inductive Advances (rom : Array Instruction) (state : State) : State → Prop
  | load {value : Nat} (hinstruction : rom[state.pc]? = some (.load value)) :
      Advances rom state { state with a := value, pc := state.pc + 1 }
  | register {destination : Destination} {computation : Computation} {jump : Option Jump}
      (hinstruction : rom[state.pc]? = some (.compute destination computation jump))
      (hwrites : destination.m = false)
      (hmemory : computation.readsMemory = true → state.a < memorySize) (value : Word) :
      Advances rom state (state.settle destination jump value)
  | cell {destination : Destination} {computation : Computation} {jump : Option Jump}
      (hinstruction : rom[state.pc]? = some (.compute destination computation jump))
      (hwrites : destination.m = true) (haddress : state.a < memorySize) (value : Word) :
      Advances rom state { state.settle destination jump value with
        memory := state.memory.set state.a value.toNat haddress }

variable {rom : Array Instruction} {state next : State}

private theorem compute_cases {destination : Destination} {computation : Computation}
    {jump : Option Jump}
    (hinstruction : rom[state.pc]? = some (.compute destination computation jump))
    (hmemory : computation.readsMemory = true → state.a < memorySize) (x : Word) :
    (∃ next, state.compute destination computation jump x = (next, none) ∧
      Advances rom state next) ∨
    ∃ fault, state.compute destination computation jump x = (state, some fault) ∧
      Fails rom state fault := by
  by_cases hwrites : destination.m = true
  · by_cases haddress : state.a < memorySize
    · refine .inl ⟨_, ?_, .cell hinstruction hwrites haddress (computation.eval state.d x)⟩
      rw [compute, if_pos hwrites, dif_pos haddress]
      rfl
    · have hreads : computation.readsMemory = false := by
        rw [Bool.eq_false_iff]
        exact fun hreads => haddress (hmemory hreads)
      refine .inr ⟨_, ?_, .write hinstruction hreads hwrites (Nat.le_of_not_lt haddress)⟩
      rw [compute, if_pos hwrites, dif_neg haddress]
  · refine .inl ⟨_, ?_, .register hinstruction (Bool.eq_false_iff.mpr hwrites) hmemory
      (computation.eval state.d x)⟩
    rw [compute, if_neg hwrites]

/-- A step does what its instruction says, or it has a fault and does nothing. -/
theorem step_cases (rom : Array Instruction) (state : State) :
    (∃ next, step rom state = (next, none) ∧ Advances rom state next) ∨
      ∃ fault, step rom state = (state, some fault) ∧ Fails rom state fault := by
  unfold step
  cases hinstruction : rom[state.pc]? with
  | none => exact .inr ⟨_, rfl, .ended (Array.getElem?_eq_none_iff.mp hinstruction)⟩
  | some instruction =>
      cases instruction with
      | load value => exact .inl ⟨_, rfl, .load hinstruction⟩
      | compute destination computation jump =>
          dsimp only
          by_cases hreads : computation.readsMemory = true
          · rw [if_pos hreads]
            by_cases haddress : state.a < memorySize
            · rw [Vector.getElem?_eq_getElem haddress]
              exact compute_cases hinstruction (fun _ => haddress) _
            · have houtside : memorySize ≤ state.a := Nat.le_of_not_lt haddress
              rw [Vector.getElem?_eq_none houtside]
              exact .inr ⟨_, rfl, .read hinstruction hreads houtside⟩
          · rw [if_neg hreads]
            exact compute_cases hinstruction (fun h => absurd h hreads) _

theorem fails_of_step {fault : Index.Fault} (h : step rom state = (next, some fault)) :
    next = state ∧ Fails rom state fault := by
  rcases step_cases rom state with ⟨other, hstep, -⟩ | ⟨found, hstep, hfails⟩
  · rw [hstep] at h
    exact absurd (Prod.mk.inj h).2 (by simp)
  · rw [hstep] at h
    obtain ⟨hnext, hfault⟩ := Prod.mk.inj h
    rw [← Option.some.inj hfault]
    exact ⟨hnext.symm, hfails⟩

theorem advances_of_step (h : step rom state = (next, none)) : Advances rom state next := by
  rcases step_cases rom state with ⟨other, hstep, hother⟩ | ⟨fault, hstep, -⟩
  · rw [hstep] at h
    rwa [← (Prod.mk.inj h).1]
  · rw [hstep] at h
    exact absurd (Prod.mk.inj h).2 (by simp)

theorem Advances.lt_size (h : Advances rom state next) : state.pc < rom.size := by
  cases h with
  | load hinstruction => exact (Array.getElem?_eq_some_iff.mp hinstruction).1
  | register hinstruction => exact (Array.getElem?_eq_some_iff.mp hinstruction).1
  | cell hinstruction => exact (Array.getElem?_eq_some_iff.mp hinstruction).1

/-- Where a step goes on, its instruction has the memory that it uses. -/
theorem Advances.lt_memorySize (h : Advances rom state next) {instruction : Instruction}
    (hinstruction : rom[state.pc]? = some instruction) (huses : instruction.usesMemory = true) :
    state.a < memorySize := by
  cases h with
  | load hload =>
      obtain rfl := Option.some.inj (hload.symm.trans hinstruction)
      exact absurd huses (by simp [Instruction.usesMemory])
  | register hcompute hwrites hmemory =>
      obtain rfl := Option.some.inj (hcompute.symm.trans hinstruction)
      rw [Instruction.usesMemory, hwrites, Bool.or_false] at huses
      exact hmemory huses
  | cell _ _ haddress => exact haddress

/-- A step has a fault exactly when the program is over or the instruction uses memory where there
is none. -/
theorem step_fault_iff :
    (∃ fault, (step rom state).2 = some fault) ↔
      rom.size ≤ state.pc ∨
        ∃ instruction, rom[state.pc]? = some instruction ∧ instruction.usesMemory = true ∧
          memorySize ≤ state.a := by
  rcases step_cases rom state with ⟨next, hstep, hnext⟩ | ⟨fault, hstep, hfails⟩
  · rw [hstep]
    constructor
    · rintro ⟨fault, hfault⟩
      exact absurd hfault (by simp)
    · rintro (hpast | ⟨instruction, hinstruction, huses, haddress⟩)
      · exact absurd hnext.lt_size (Nat.not_lt.mpr hpast)
      · exact absurd (hnext.lt_memorySize hinstruction huses) (Nat.not_lt.mpr haddress)
  · rw [hstep]
    refine ⟨fun _ => ?_, fun _ => ⟨fault, rfl⟩⟩
    cases hfails with
    | ended hpc => exact .inl hpc
    | read hinstruction hreads haddress =>
        refine .inr ⟨_, hinstruction, ?_, haddress⟩
        rw [Instruction.usesMemory, hreads, Bool.true_or]
    | write hinstruction _ hwrites haddress =>
        refine .inr ⟨_, hinstruction, ?_, haddress⟩
        rw [Instruction.usesMemory, hwrites, Bool.or_true]

/-! ## Runs -/

/-- What every step keeps, a run keeps. -/
theorem runFor_keeps {P : State → Prop}
    (hkeep : ∀ {state next : State}, P state → Advances rom state next →
      P { next with steps := next.steps + 1 })
    {target : Option Nat} (budget : Nat) (hstate : P state) :
    P (runFor rom target budget state).1 := by
  induction budget generalizing state with
  | zero => exact hstate
  | succ budget ih =>
      rw [runFor]
      split
      · exact hstate
      · split
        · exact hstate
        · rcases step_cases rom state with ⟨next, hstep, hnext⟩ | ⟨fault, hstep, -⟩
          · rw [hstep]
            exact ih (hkeep hstate hnext)
          · rw [hstep]
            exact hstate

/-- A run that has a fault has come to a step that has it, inside the program. -/
theorem fails_of_runFor {target : Option Nat} {budget : Nat} {final : State} {fault : Index.Fault}
    (h : runFor rom target budget state = (final, .error fault)) :
    final.pc < rom.size ∧ step rom final = (final, some fault) := by
  induction budget generalizing state with
  | zero => exact absurd (Prod.mk.inj h).2 (by simp)
  | succ budget ih =>
      rw [runFor] at h
      split at h
      · exact absurd (Prod.mk.inj h).2 (by simp)
      · split at h
        · exact absurd (Prod.mk.inj h).2 (by simp)
        · next hinside =>
          rcases step_cases rom state with ⟨next, hstep, -⟩ | ⟨found, hstep, -⟩
          · rw [hstep] at h
            exact ih h
          · rw [hstep] at h
            obtain ⟨rfl, hfault⟩ := Prod.mk.inj h
            obtain rfl := Except.error.inj hfault
            exact ⟨Nat.lt_of_not_le hinside, hstep⟩

/-! ## Well-formed states -/

/-- The memory is complete, cells and registers hold words, and addresses are within the bound. -/
structure WellFormed (rom : Array Instruction) (state : State) : Prop where
  size : state.memory.toList.length = 32768
  cells : ∀ cell ∈ state.memory.toList, 0 ≤ cell ∧ cell ≤ 65535
  d : state.d.toNat ≤ 65535
  a : state.a ≤ addressBound rom
  pc : state.pc ≤ addressBound rom

private theorem toNat_le_word (word : Word) : word.toNat ≤ 65535 :=
  Nat.le_of_lt_succ word.isLt

theorem wellFormed_initial (rom : Array Instruction) : WellFormed rom .initial := by
  refine ⟨Vector.length_toList, ?_, toNat_le_word _, Nat.zero_le _, Nat.zero_le _⟩
  intro cell hcell
  have hzero : cell = 0 := by
    rw [initial, Vector.toList_replicate] at hcell
    exact List.eq_of_mem_replicate hcell
  rw [hzero]
  decide

/-- A word may be put anywhere. -/
private theorem cells_set {memory : Memory} {address : Nat} (haddress : address < memorySize)
    (value : Word) (hcells : ∀ cell ∈ memory.toList, 0 ≤ cell ∧ cell ≤ 65535) :
    ∀ cell ∈ (memory.set address value.toNat haddress).toList, 0 ≤ cell ∧ cell ≤ 65535 := by
  intro cell hcell
  rw [Vector.toList_set] at hcell
  rcases List.mem_or_eq_of_mem_set hcell with hold | rfl
  · exact hcells cell hold
  · have hword := toNat_le_word value
    omega

private theorem WellFormed.settle (h : WellFormed rom state) (hpc : state.pc < rom.size)
    (destination : Destination) (jump : Option Jump) (value : Word) :
    WellFormed rom (state.settle destination jump value) := by
  refine ⟨h.size, h.cells, toNat_le_word _, ?_, ?_⟩
  · change (if destination.a then value.toNat else state.a) ≤ addressBound rom
    split
    · have hword := toNat_le_word value
      unfold addressBound
      omega
    · exact h.a
  · change (if jump.any (·.isTaken value) then state.a else state.pc + 1) ≤ addressBound rom
    split
    · exact h.a
    · unfold addressBound
      omega

theorem WellFormed.advances (h : WellFormed rom state) (hnext : Advances rom state next) :
    WellFormed rom next := by
  have hpc := hnext.lt_size
  cases hnext with
  | load hinstruction =>
      refine ⟨h.size, h.cells, h.d, le_addressBound_of_load hinstruction, ?_⟩
      change state.pc + 1 ≤ addressBound rom
      unfold addressBound
      omega
  | register _ _ _ value => exact h.settle hpc _ _ value
  | @cell destination _ jump _ _ haddress value =>
      have hsettled := h.settle hpc destination jump value
      exact ⟨Vector.length_toList, cells_set haddress value h.cells, hsettled.d, hsettled.a,
        hsettled.pc⟩

theorem WellFormed.step (h : WellFormed rom state) : WellFormed rom (step rom state).1 := by
  rcases step_cases rom state with ⟨next, hstep, hnext⟩ | ⟨fault, hstep, -⟩
  · rw [hstep]
    exact h.advances hnext
  · rw [hstep]
    exact h

theorem WellFormed.runFor (h : WellFormed rom state) (target : Option Nat) (budget : Nat) :
    WellFormed rom (runFor rom target budget state).1 := by
  apply runFor_keeps _ budget h
  intro state next hstate hnext
  have hgone := hstate.advances hnext
  exact ⟨hgone.size, hgone.cells, hgone.d, hgone.a, hgone.pc⟩

theorem WellFormed.poke (h : WellFormed rom state) (address : Fin memorySize) (word : Word) :
    WellFormed rom (state.poke address.val word.toNat).1 := by
  rw [State.poke, Index.place?_natCast address.isLt]
  exact ⟨Vector.length_toList, cells_set address.isLt word h.cells, h.d, h.a, h.pc⟩

/-! ## Any handling -/

/-- What can be done with a machine. -/
inductive Handling where
  /-- Makes one step. -/
  | step
  /-- Runs, up to a label if one is named. -/
  | run (label : Option String) (maxSteps : Int)
  /-- Puts a word into a cell. -/
  | poke (address : Fin memorySize) (word : Word)
  deriving DecidableEq, Repr

/-- The state after a handling, also when it ended with a fault. -/
def handle (image : Image) (state : State) : Handling → State
  | .step => (step image.rom state).1
  | .run label maxSteps => (state.runTo image label maxSteps).1
  | .poke address word => (state.poke address.val word.toNat).1

theorem WellFormed.handle {image : Image} (h : WellFormed image.rom state) (handling : Handling) :
    WellFormed image.rom (state.handle image handling) := by
  cases handling with
  | step => exact h.step
  | run label maxSteps =>
      change WellFormed image.rom (state.runTo image label maxSteps).1
      unfold runTo
      split
      · exact h
      · exact h.runFor _ _
  | poke address word => exact h.poke address word

/-- Only a step inside the program can make a run fail, if the label to run to is declared. -/
private theorem fails_of_runTo {image : Image} {label : Option String}
    (hlabel : (image.target? label).isSome = true) {maxSteps : Int} {final : State}
    {error : RunError} (h : state.runTo image label maxSteps = (final, .error error)) :
    ∃ fault, error = .fault fault ∧ step image.rom final = (final, some fault) ∧
      final.pc < image.rom.size := by
  obtain ⟨target, htarget⟩ := Option.isSome_iff_exists.mp hlabel
  rw [runTo_of_target htarget, Prod.mk.injEq] at h
  obtain ⟨hfinal, herror⟩ := h
  cases hresult : (state.run image.rom target maxSteps.toNat).2 with
  | ok stop =>
      rw [hresult] at herror
      have hok : Except.mapError RunError.fault (.ok stop) = .ok stop := rfl
      exact absurd (hok.symm.trans herror) (by simp)
  | error fault =>
      rw [hresult] at herror
      obtain ⟨hpc, hstep⟩ := fails_of_runFor (Prod.ext hfinal hresult)
      exact ⟨fault, (Except.error.inj herror).symm, hstep, hpc⟩

/-- However a machine was handled since its start, its state is well formed.  The next step has a
fault exactly when the program is over or the instruction uses memory where there is none, and then
changes nothing.  A run that names no label or a declared one fails only in such a step, which
stands inside the program, and leaves the state in which that step was to be made. -/
theorem machine_stays_well_formed (image : Image) (handlings : List Handling) :
    let state := handlings.foldl (State.handle image) .initial
    state.WellFormed image.rom ∧
      ((∃ fault, (step image.rom state).2 = some fault) ↔
        image.rom.size ≤ state.pc ∨
          ∃ instruction, image.rom[state.pc]? = some instruction ∧
            instruction.usesMemory = true ∧ memorySize ≤ state.a) ∧
      (∀ next fault, step image.rom state = (next, some fault) →
        next = state ∧ state.Fails image.rom fault) ∧
      ∀ label maxSteps final error, (image.target? label).isSome = true →
        state.runTo image label maxSteps = (final, .error error) →
          ∃ fault, error = .fault fault ∧ step image.rom final = (final, some fault) ∧
            final.pc < image.rom.size ∧ memorySize ≤ final.a := by
  intro state
  have hwellFormed : state.WellFormed image.rom := by
    have hkept : ∀ start : State, start.WellFormed image.rom →
        (handlings.foldl (State.handle image) start).WellFormed image.rom := by
      induction handlings with
      | nil => exact fun _ h => h
      | cons handling rest ih => exact fun start h => ih _ (h.handle handling)
    exact hkept _ (wellFormed_initial image.rom)
  refine ⟨hwellFormed, step_fault_iff, fun _ _ h => fails_of_step h, ?_⟩
  intro label maxSteps final error hlabel hrun
  obtain ⟨fault, herror, hstep, hpc⟩ := fails_of_runTo hlabel hrun
  have hfault : ∃ fault, (step image.rom final).2 = some fault := ⟨fault, by rw [hstep]⟩
  rcases step_fault_iff.mp hfault with hpast | ⟨_, _, _, haddress⟩
  · exact absurd hpc (Nat.not_lt.mpr hpast)
  · exact ⟨fault, herror, hstep, hpc, haddress⟩

/-- A program that stores a word where there is no memory. -/
def strayStore : Image :=
  ⟨#[.load 70000, .compute ⟨false, true, false⟩ .one none], [], []⟩

theorem machine_stays_well_formed_sample :
    let state := [Handling.poke ⟨3, by decide⟩ 5, .step].foldl (State.handle strayStore) .initial
    state.a = 70000 ∧ state.WellFormed strayStore.rom ∧
      (∃ fault, step strayStore.rom state = (state, some fault)) ∧
      ∃ final, state.runTo strayStore none 10 = (final, .error (.fault ⟨.write, 70000⟩)) ∧
        final.pc < strayStore.rom.size ∧ memorySize ≤ final.a := by
  intro state
  have haddress : state.a = 70000 := by decide +kernel
  have hinstruction : strayStore.rom[state.pc]? =
      some (.compute ⟨false, true, false⟩ .one none) := by decide +kernel
  have hrun : (state.runTo strayStore none 10).2 = .error (.fault ⟨.write, 70000⟩) := by rfl
  obtain ⟨hwellFormed, hfaults, hunchanged, hruns⟩ :=
    machine_stays_well_formed strayStore [.poke ⟨3, by decide⟩ 5, .step]
  refine ⟨haddress, hwellFormed, ?_, _, Prod.ext rfl hrun, ?_⟩
  · obtain ⟨fault, hfault⟩ := hfaults.mpr
      (.inr ⟨_, hinstruction, rfl, by rw [haddress]; decide⟩)
    have hstep : step strayStore.rom state = (_, some fault) := Prod.ext rfl hfault
    rw [(hunchanged _ fault hstep).1] at hstep
    exact ⟨fault, hstep⟩
  · obtain ⟨-, -, -, hpc, hlarge⟩ := hruns none 10 _ _ rfl (Prod.ext rfl hrun)
    exact ⟨hpc, hlarge⟩

end State

end HackVm.Hack
