import HackVm.Hack.Image
import HackVm.Index

/-!
# The machine

A machine state holds the registers, the memory of 32768 cells and the number of steps that runs
have made.  The address register and the program counter are natural numbers without a bound: a
number is loaded as it was written.  A cell keeps any integer that was put there from outside; the
machine itself writes words, and of what it reads only the lowest sixteen bits count.

`step` carries out one instruction, or reports a fault and leaves the state alone.  `run` makes
steps until the program counter is at a given address, or past the program, or the budget is used
up.  `runTo` is given the name of a label instead of an address.
-/

namespace HackVm.Hack

/-- The number of memory cells. -/
def memorySize : Nat := 32768

/-- The memory of the machine. -/
abbrev Memory := Vector Int memorySize

/-- Registers, memory and the count of steps made by runs. -/
structure State where
  a : Nat
  d : Word
  pc : Nat
  memory : Memory
  steps : Nat
  deriving DecidableEq

/-- Why a run ended. -/
inductive Stop where
  | label | finish | timeout
  deriving DecidableEq, Repr

/-- Why a run gives no reason to stop. -/
inductive RunError where
  /-- There is no label of that name to run to. -/
  | unknownLabel (name : String)
  /-- A step had a fault. -/
  | fault (fault : Index.Fault)
  deriving DecidableEq, Repr

/-- Where a run up to a label stops: at its address, or at none when no label is named.  An empty
name names no label. -/
def Image.target? (image : Image) (label : Option String) : Option (Option Nat) :=
  match label.filter (!·.isEmpty) with
  | none => some none
  | some name => (image.labels.lookup name).map some

/-- The value of a word with its highest bit as a sign, for any integer reduced to a word. -/
def signed (value : Int) : Int :=
  (BitVec.ofInt 16 value).toInt

namespace State

/-- The state before the first step: everything is zero. -/
def initial : State where
  a := 0
  d := 0
  pc := 0
  memory := Vector.replicate memorySize 0
  steps := 0

/-- Puts a computed word into the registers of the destination, and moves on or jumps to the
address that `A` held before. -/
def settle (state : State) (destination : Destination) (jump : Option Jump) (value : Word) :
    State :=
  { state with
    a := if destination.a then value.toNat else state.a
    d := if destination.d then value else state.d
    pc := if jump.any (·.isTaken value) then state.a else state.pc + 1 }

/-- Carries out a computing instruction whose operand is `x`. -/
def compute (state : State) (destination : Destination) (computation : Computation)
    (jump : Option Jump) (x : Word) : State × Option Index.Fault :=
  let value := computation.eval state.d x
  let address := state.a
  if destination.m then
    if h : address < memorySize then
      let settled := state.settle destination jump value
      ({ settled with memory := settled.memory.set address value.toNat h }, none)
    else
      (state, some ⟨.write, address⟩)
  else
    (state.settle destination jump value, none)

/-- Carries out the instruction at the program counter.  With a fault the state is unchanged. -/
def step (rom : Array Instruction) (state : State) : State × Option Index.Fault :=
  match rom[state.pc]? with
  | none => (state, some ⟨.read, state.pc⟩)
  | some (.load value) => ({ state with a := value, pc := state.pc + 1 }, none)
  | some (.compute destination computation jump) =>
    if computation.readsMemory then
      match state.memory[state.a]? with
      | some cell => state.compute destination computation jump (BitVec.ofInt 16 cell)
      | none => (state, some ⟨.read, state.a⟩)
    else
      state.compute destination computation jump (BitVec.ofNat 16 state.a)

/-- Makes `count` steps, up to the first fault.  These steps are not counted. -/
def stepTimes (rom : Array Instruction) : Nat → State → State × Option Index.Fault
  | 0, state => (state, none)
  | count + 1, state =>
    match step rom state with
    | (next, none) => stepTimes rom count next
    | (next, some fault) => (next, some fault)

/-- Makes at most `budget` steps, up to address `target`, the end of the program or a fault. -/
def runFor (rom : Array Instruction) (target : Option Nat) :
    Nat → State → State × Except Index.Fault Stop
  | 0, state => (state, .ok .timeout)
  | budget + 1, state =>
    if target == some state.pc then
      (state, .ok .label)
    else if rom.size ≤ state.pc then
      (state, .ok .finish)
    else
      match step rom state with
      | (next, none) => runFor rom target budget { next with steps := next.steps + 1 }
      | (next, some fault) => (next, .error fault)

/-- Runs until the count of steps is `maxSteps`. -/
def run (rom : Array Instruction) (target : Option Nat) (maxSteps : Nat) (state : State) :
    State × Except Index.Fault Stop :=
  runFor rom target (maxSteps - state.steps) state

/-- Runs up to a label, if one is named. -/
def runTo (image : Image) (label : Option String) (maxSteps : Int) (state : State) :
    State × Except RunError Stop :=
  match image.target? label with
  | none => (state, .error (.unknownLabel (label.getD "")))
  | some target =>
    let (final, result) := state.run image.rom target maxSteps.toNat
    (final, result.mapError .fault)

theorem runTo_of_target {image : Image} {label : Option String} {target : Option Nat}
    (h : image.target? label = some target) (maxSteps : Int) (state : State) :
    state.runTo image label maxSteps =
      ((state.run image.rom target maxSteps.toNat).1,
        (state.run image.rom target maxSteps.toNat).2.mapError .fault) := by
  rw [runTo, h]

/-! ## Looking at memory -/

/-- The stack pointer. -/
def stackPointer (state : State) : Int :=
  state.memory[0]

/-- The cells from index `low` up to `high`, as far as there are such cells. -/
def cells (state : State) (low high : Int) : List Int :=
  let first := (Index.offset memorySize low).toNat
  let last := (Index.offset memorySize high).toNat
  (state.memory.toList.take last).drop first

/-- The stack from `base` up to the stack pointer, as signed numbers. -/
def stack (state : State) (base : Int) : List Int :=
  (state.cells base state.stackPointer).map signed

/-- The cell at an index, as a signed number. -/
def cell (state : State) (index : Int) : Except Index.Fault Int :=
  match Index.place? memorySize index with
  | some place => .ok (signed state.memory[place])
  | none => .error ⟨.read, index⟩

/-- Puts an integer into the cell at an index. -/
def poke (state : State) (index value : Int) : State × Option Index.Fault :=
  match Index.place? memorySize index with
  | some place => ({ state with memory := state.memory.set place value }, none)
  | none => (state, some ⟨.write, index⟩)

/-- Puts integers into cells, up to the first fault. -/
def pokeAll : List (Int × Int) → State → State × Option Index.Fault
  | [], state => (state, none)
  | (index, value) :: rest, state =>
    match state.poke index value with
    | (next, none) => pokeAll rest next
    | (next, some fault) => (next, some fault)

end State

end HackVm.Hack
