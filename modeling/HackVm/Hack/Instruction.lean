/-!
# Instructions of the Hack machine

The machine works on words of sixteen bits.  Its instructions either load a number into the
address register `A`, or compute a function of the data register `D` and an operand, which is `A`
or the memory cell `M` that `A` points to.  The computed word goes to any of the three, and its sign
can decide a jump.

The mnemonics are given in both directions: `Computation.text` and `Computation.ofText?`,
`Jump.text` and `Jump.ofText?`, `Destination.text` and `Destination.ofText?`.
-/

namespace HackVm.Hack

/-- A machine word. -/
abbrev Word := BitVec 16

/-- The second operand of a computation: the address register or the cell it points to. -/
inductive Operand where
  | a | m
  deriving DecidableEq, Repr

/-- The mnemonic of an operand. -/
def Operand.text : Operand → String
  | .a => "A"
  | .m => "M"

/-- The functions that the machine computes of `D` and an operand. -/
inductive Computation where
  | zero | one | minusOne
  | d | notD | negD | succD | predD
  | operand (x : Operand) | notOperand (x : Operand) | negOperand (x : Operand)
  | succOperand (x : Operand) | predOperand (x : Operand)
  | sum (x : Operand) | dMinus (x : Operand) | minusD (x : Operand)
  | and (x : Operand) | or (x : Operand)
  deriving DecidableEq, Repr

namespace Computation

/-- The mnemonic of a computation. -/
def text : Computation → String
  | .zero => "0"
  | .one => "1"
  | .minusOne => "-1"
  | .d => "D"
  | .notD => "!D"
  | .negD => "-D"
  | .succD => "D+1"
  | .predD => "D-1"
  | .operand x => x.text
  | .notOperand x => "!" ++ x.text
  | .negOperand x => "-" ++ x.text
  | .succOperand x => x.text ++ "+1"
  | .predOperand x => x.text ++ "-1"
  | .sum x => "D+" ++ x.text
  | .dMinus x => "D-" ++ x.text
  | .minusD x => x.text ++ "-D"
  | .and x => "D&" ++ x.text
  | .or x => "D|" ++ x.text

/-- All computations. -/
def all : List Computation :=
  [.zero, .one, .minusOne, .d, .notD, .negD, .succD, .predD] ++
    [Operand.a, Operand.m].flatMap fun x =>
      [.operand x, .notOperand x, .negOperand x, .succOperand x, .predOperand x, .sum x,
       .dMinus x, .minusD x, .and x, .or x]

/-- The computation with a given mnemonic. -/
def ofText? (text : String) : Option Computation :=
  all.find? (·.text == text)

/-- The operand that a computation looks at. -/
def operand? : Computation → Option Operand
  | .operand x | .notOperand x | .negOperand x | .succOperand x | .predOperand x => some x
  | .sum x | .dMinus x | .minusD x | .and x | .or x => some x
  | _ => none

/-- A computation reads memory when its operand is the cell that `A` points to. -/
def readsMemory (computation : Computation) : Bool :=
  computation.operand? == some .m

/-- The word computed from `D` and the operand. -/
def eval (computation : Computation) (d x : Word) : Word :=
  match computation with
  | .zero => 0
  | .one => 1
  | .minusOne => -1
  | .d => d
  | .notD => ~~~d
  | .negD => -d
  | .succD => d + 1
  | .predD => d - 1
  | .operand _ => x
  | .notOperand _ => ~~~x
  | .negOperand _ => -x
  | .succOperand _ => x + 1
  | .predOperand _ => x - 1
  | .sum _ => d + x
  | .dMinus _ => d - x
  | .minusD _ => x - d
  | .and _ => d &&& x
  | .or _ => d ||| x

theorem mem_all (computation : Computation) : computation ∈ all := by
  cases computation <;> (try (rename_i x; cases x)) <;> decide

@[simp] theorem ofText?_text (computation : Computation) :
    ofText? computation.text = some computation := by
  cases computation <;> (try (rename_i x; cases x)) <;> decide

end Computation

/-- The conditions of a jump on the sign of the computed word. -/
inductive Jump where
  | gt | eq | ge | lt | ne | le | always
  deriving DecidableEq, Repr

namespace Jump

/-- The mnemonic of a jump. -/
def text : Jump → String
  | .gt => "JGT"
  | .eq => "JEQ"
  | .ge => "JGE"
  | .lt => "JLT"
  | .ne => "JNE"
  | .le => "JLE"
  | .always => "JMP"

/-- All jumps. -/
def all : List Jump := [.gt, .eq, .ge, .lt, .ne, .le, .always]

/-- The jump with a given mnemonic. -/
def ofText? (text : String) : Option Jump :=
  all.find? (·.text == text)

/-- Whether a jump is taken, by the sign of the computed word. -/
def isTaken (jump : Jump) (value : Word) : Bool :=
  match jump with
  | .gt => 0 < value.toInt
  | .eq => value.toInt == 0
  | .ge => 0 ≤ value.toInt
  | .lt => value.toInt < 0
  | .ne => value.toInt != 0
  | .le => value.toInt ≤ 0
  | .always => true

@[simp] theorem ofText?_text (jump : Jump) : ofText? jump.text = some jump := by
  cases jump <;> decide

end Jump

/-- Where the computed word goes. -/
structure Destination where
  a : Bool
  m : Bool
  d : Bool
  deriving DecidableEq, Repr

namespace Destination

/-- The mnemonic of a destination: its letters in the order `A`, `M`, `D`. -/
def text (destination : Destination) : String :=
  (if destination.a then "A" else "") ++ (if destination.m then "M" else "") ++
    (if destination.d then "D" else "")

/-- The destination that a mnemonic names.  The letters may come in any order, and more than
once. -/
def ofText? (text : String) : Option Destination :=
  if text.toList.all fun c => c == 'A' || c == 'M' || c == 'D' then
    some ⟨text.toList.contains 'A', text.toList.contains 'M', text.toList.contains 'D'⟩
  else
    none

@[simp] theorem ofText?_text (destination : Destination) :
    ofText? destination.text = some destination := by
  obtain ⟨a, m, d⟩ := destination
  cases a <;> cases m <;> cases d <;> decide

end Destination

/-- One instruction in program memory. -/
inductive Instruction where
  /-- Loads a number into `A`. -/
  | load (value : Nat)
  /-- Computes a word, stores it, and jumps to the address in `A` if the condition holds. -/
  | compute (destination : Destination) (computation : Computation) (jump : Option Jump)
  deriving DecidableEq, Repr

/-- The mnemonic of a computing instruction: `destination=computation;jump`, where an empty
destination and a missing jump are left out with their signs. -/
def computeText (destination : Destination) (computation : Computation) (jump : Option Jump) :
    String :=
  (if destination.text.isEmpty then "" else destination.text ++ "=") ++ computation.text ++
    (match jump with
      | some jump => ";" ++ jump.text
      | none => "")

end HackVm.Hack
