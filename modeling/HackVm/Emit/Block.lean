import HackVm.Emit.Statement

/-!
# Code for each command

Every command becomes a block of statements.  The stack grows upward; the stack pointer, held in
register `SP`, is the address of the first free cell.  Truth values are -1 and 0.

A call pushes a frame of five cells: the return address and the registers `LCL`, `ARG`, `THIS` and
`THAT` of the caller.  A return puts the result where the first argument was and restores the
registers from the frame.
-/

namespace HackVm.Emit

open Hack

/-! ## The memory map -/

/-- The customary first cell of the stack. -/
def stackBase : Int := 256

/-- The first cell of segment `temp`. -/
def tempBase : Int := 5

/-- The number of cells of segment `temp`. -/
def tempSize : Nat := 8

/-- The registers that a call saves, in the order in which it pushes them. -/
def savedRegisters : List Register := [.lcl, .arg, .this, .that]

/-- The number of cells of a frame: the return address and the saved registers. -/
def frameSize : Int := savedRegisters.length + 1

/-- The registers that segment `pointer` stands for. -/
def pointerRegisters : List Register := [.this, .that]

/-- The function with which a program starts. -/
def entryFunction : String := "Sys.init"

/-! ## Single statements -/

/-- Into the address register. -/
def intoA : Destination := ⟨true, false, false⟩

/-- Into the addressed cell. -/
def intoM : Destination := ⟨false, true, false⟩

/-- Into the data register. -/
def intoD : Destination := ⟨false, false, true⟩

/-- Into the address register and the addressed cell. -/
def intoAM : Destination := ⟨true, true, false⟩

/-- Computes without a jump. -/
def assign (destination : Destination) (computation : Computation) : Statement :=
  .compute destination computation none

/-- Jumps to the loaded address on a condition on a computed word. -/
def jumpIf (computation : Computation) (jump : Jump) : Statement :=
  .compute ⟨false, false, false⟩ computation (some jump)

/-- Loads the name of a register. -/
def atRegister (register : Register) : Statement :=
  .load (.register register)

/-- Loads a number. -/
def atNumber (value : Int) : Statement :=
  .load (.number value)

/-! ## Stack and registers -/

/-- Pushes `D`. -/
def pushD : List Statement :=
  [atRegister .sp, assign intoA (.operand .m), assign intoM .d,
   atRegister .sp, assign intoM (.succOperand .m)]

/-- Pops into `D`.  The address register is left at the popped cell. -/
def popD : List Statement :=
  [atRegister .sp, assign intoAM (.predOperand .m), assign intoD (.operand .m)]

/-- Points the address register at the top of the stack. -/
def atTop : List Statement :=
  [atRegister .sp, assign intoA (.predOperand .m)]

/-- Copies the cell that a symbol stands for into `D`. -/
def fetch (symbol : Symbol) : List Statement :=
  [.load symbol, assign intoD (.operand .m)]

/-- Copies the address that a symbol stands for into `D`. -/
def fetchAddress (symbol : Symbol) : List Statement :=
  [.load symbol, assign intoD (.operand .a)]

/-- Stores `D` in the cell that a symbol stands for. -/
def store (symbol : Symbol) : List Statement :=
  [.load symbol, assign intoM .d]

/-- Jumps to a symbol. -/
def jumpTo (symbol : Symbol) : List Statement :=
  [.load symbol, jumpIf .zero .always]

/-- Jumps to a symbol on a condition on `D`. -/
def jumpWhen (jump : Jump) (symbol : Symbol) : List Statement :=
  [.load symbol, jumpIf .d jump]

/-! ## Arithmetic -/

/-- An operator with two operands.  The computation has the top in `D` and the other in `M`. -/
def binaryBlock (computation : Computation) : List Statement :=
  popD ++ [assign intoA (.predOperand .a), assign intoM computation]

/-- An operator with one operand, which is in `M`. -/
def unaryBlock (computation : Computation) : List Statement :=
  atTop ++ [assign intoM computation]

/-- Leaves the difference of the two operands in `D`, which may wrap around. -/
def difference : List Statement :=
  popD ++ [assign intoA (.predOperand .a), assign intoD (.minusD .m)]

/-- Leaves in `D` a word with the sign of the true difference of the two operands.  When their
signs differ the difference could wrap around, and the sign of the lower operand decides alone. -/
def signedDifference (comparison : Comparison) (serial : Nat) : List Statement :=
  let place (place : Place) : Symbol := .comparison place comparison serial
  popD ++ store (.register .scratch) ++
    atTop ++ [assign intoD (.operand .m)] ++ jumpWhen .lt (place .negative) ++
    fetch (.register .scratch) ++ jumpWhen .ge (place .sameSign) ++
    [assign intoD .one] ++ jumpTo (place .test) ++
    [.declare (place .negative)] ++
    fetch (.register .scratch) ++ jumpWhen .lt (place .sameSign) ++
    [assign intoD .minusOne] ++ jumpTo (place .test) ++
    [.declare (place .sameSign)] ++
    fetch (.register .scratch) ++ atTop ++ [assign intoD (.minusD .m)] ++
    [.declare (place .test)]

/-- A comparison, with a serial number that keeps its labels apart from those of others.  A
difference is zero only for equal operands, even if it wraps around. -/
def comparisonBlock (comparison : Comparison) (serial : Nat) : List Statement :=
  let place (place : Place) : Symbol := .comparison place comparison serial
  (if comparison = .eq then difference else signedDifference comparison serial) ++
    jumpWhen comparison.jump (place .holds) ++
    atTop ++ [assign intoM .zero] ++ jumpTo (place .done) ++
    [.declare (place .holds)] ++ atTop ++ [assign intoM .minusOne] ++
    [.declare (place .done)]

/-! ## Memory -/

/-- Where a cell of a segment is found. -/
inductive Location where
  /-- The constant itself. -/
  | constant (value : Int)
  /-- At a distance from the address that a register holds. -/
  | indirect (base : Register) (index : Int)
  /-- The cell that a symbol stands for. -/
  | direct (symbol : Symbol)
  deriving DecidableEq, Repr

/-- Pushes a cell. -/
def pushBlock : Location → List Statement
  | .constant value => fetchAddress (.number value) ++ pushD
  | .indirect base index =>
    fetchAddress (.number index) ++ [atRegister base, assign intoA (.sum .m),
      assign intoD (.operand .m)] ++ pushD
  | .direct symbol => fetch symbol ++ pushD

/-- Pops into a cell.  The address is computed before the stack pointer moves.  A constant has no
cell. -/
def popBlock? : Location → Option (List Statement)
  | .constant _ => none
  | .indirect base index =>
    some (fetchAddress (.number index) ++ [atRegister base, assign intoD (.sum .m)] ++
      store (.register .scratch) ++ popD ++
      [atRegister .scratch, assign intoA (.operand .m), assign intoM .d])
  | .direct symbol => some (popD ++ store symbol)

/-! ## Control -/

/-- Declares a name. -/
def labelBlock (name : String) : List Statement :=
  [.declare (.name name)]

/-- Jumps to a name. -/
def gotoBlock (name : String) : List Statement :=
  jumpTo (.name name)

/-- Pops and jumps to a name unless the word is zero. -/
def ifGotoBlock (name : String) : List Statement :=
  popD ++ jumpWhen .ne (.name name)

/-- Pushes a zero. -/
def pushZero : List Statement :=
  [atRegister .sp, assign intoA (.operand .m), assign intoM .zero,
   atRegister .sp, assign intoM (.succOperand .m)]

/-- Begins a function: declares its name and pushes its local variables. -/
def functionBlock (name : String) (locals : Int) : List Statement :=
  .declare (.name name) :: (List.replicate locals.toNat pushZero).flatten

/-- Calls a function with arguments that are on the stack already; `back` is the label of the
return. -/
def callBlock (function : String) (arguments : Int) (back : Symbol) : List Statement :=
  fetchAddress back ++ pushD ++
    savedRegisters.flatMap (fun register => fetch (.register register) ++ pushD) ++
    fetch (.register .sp) ++ [atNumber (frameSize + arguments), assign intoD (.dMinus .a)] ++
    store (.register .arg) ++
    fetch (.register .sp) ++ store (.register .lcl) ++
    jumpTo (.name function) ++ [.declare back]

/-- Restores a register from the frame cell at a distance below the frame's end. -/
def restore (distance : Nat) (register : Register) : List Statement :=
  fetch (.register .frame) ++
    [atNumber distance, assign intoA (.dMinus .a), assign intoD (.operand .m)] ++
    store (.register register)

/-- Returns to the caller.  The return address is read first: without arguments its cell is the
one that receives the result. -/
def returnBlock : List Statement :=
  fetch (.register .lcl) ++ store (.register .frame) ++
    [atNumber frameSize, assign intoA (.dMinus .a), assign intoD (.operand .m)] ++
    store (.register .scratch) ++
    popD ++ [atRegister .arg, assign intoA (.operand .m), assign intoM .d] ++
    [atRegister .arg, assign intoD (.succOperand .m)] ++ store (.register .sp) ++
    restore 1 .that ++ restore 2 .this ++ restore 3 .arg ++ restore 4 .lcl ++
    [atRegister .scratch, assign intoA (.operand .m), jumpIf .zero .always]

/-- Sets the stack pointer and calls the entry function. -/
def bootstrapBlock (base : Int) (back : Symbol) : List Statement :=
  fetchAddress (.number base) ++ store (.register .sp) ++ callBlock entryFunction 0 back

end HackVm.Emit
