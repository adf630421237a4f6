import HackVm.Proofs.Emission.Meaning
import HackVm.Proofs.Reference.Ram

/-!
# The stack machine

What the commands of a program mean, without any reference to the code that they become.  A
configuration is the point of the program that comes next and the memory, and `Program.step` carries
out one command.  `Program.Executes` says by rules what that can be, and proofs about commands go
through the rules.

A point is either the start of the program or a command of the listing.  Jumps go to the command
that declares their target.  A call pushes the address of the code that follows it, and a return
goes on at the point with the address that the frame holds, which has to be one that a call pushed.
-/

namespace HackVm

open Emit Hack

/-- The word for a truth value. -/
def truth (holds : Bool) : Word :=
  if holds then -1 else 0

/-- What an operator does to the stack. -/
def Operator.apply (operator : Operator) (ram : Ram) : Option Ram :=
  match operator with
  | .add => ram.combine fun x y => x + y
  | .sub => ram.combine fun x y => x - y
  | .and => ram.combine fun x y => x &&& y
  | .or => ram.combine fun x y => x ||| y
  | .neg => ram.replaceTop fun x => -x
  | .not => ram.replaceTop fun x => ~~~x
  | .eq => ram.combine fun x y => truth (x = y)
  | .gt => ram.combineOrdered fun x y => truth (y.toInt < x.toInt)
  | .lt => ram.combineOrdered fun x y => truth (x.toInt < y.toInt)

/-- Where a cell of a segment is: at a distance from the address that a register holds, or at an
address of its own. -/
inductive Cell where
  | based (register : Register) (index : Int)
  | fixed (address : Nat)
  deriving DecidableEq, Repr

/-- The word in a cell. -/
def Cell.read? (cell : Cell) (ram : Ram) : Option Word :=
  match cell with
  | .based register index => ram.read? (BitVec.ofInt 16 index + ram.register register).toNat
  | .fixed address => ram.read? address

/-- Pops into a cell.  An address that depends on a register is computed first, and kept in the
scratch register. -/
def Cell.pop (cell : Cell) (ram : Ram) : Option Ram :=
  match cell with
  | .based register index => do
    let kept := ram.setRegister .scratch (BitVec.ofInt 16 index + ram.register register)
    let (word, rest) ← kept.pop
    rest.write? (rest.register .scratch).toNat word
  | .fixed address => do
    let (word, rest) ← ram.pop
    rest.write? address word

/-- A program as the stack machine sees it. -/
structure Program where
  /-- The commands in order. -/
  entries : List Entry
  /-- Where the code of a command begins, or that of the program's end. -/
  address : Nat → Nat
  /-- The cell of a static variable. -/
  static? : String → Int → Option Nat
  /-- The first cell of the stack, for a program with start-up code. -/
  start? : Option Int

/-- A point of a program: its start, or a command. -/
inductive Point where
  | start
  | command (i : Nat)
  deriving DecidableEq, Repr

/-- The state of the stack machine. -/
structure Configuration where
  next : Point
  ram : Ram

namespace Program

/-- The cell of a segment of a source. -/
def cell? (program : Program) (source : String) (segment : Segment) (index : Int) : Option Cell :=
  match segment with
  | .constant => none
  | .locals => some (.based .lcl index)
  | .argument => some (.based .arg index)
  | .this => some (.based .this index)
  | .that => some (.based .that index)
  | .pointer =>
    if index = 0 then some (.fixed Register.this.cell)
    else if index = 1 then some (.fixed Register.that.cell)
    else none
  | .temp => some (.fixed (5 + index).toNat)
  | .static => (program.static? source index).map .fixed

/-- The word that a push copies. -/
def value? (program : Program) (source : String) (segment : Segment) (index : Int) (ram : Ram) :
    Option Word :=
  match segment with
  | .constant => some (BitVec.ofInt 16 index)
  | segment => do
    let cell ← program.cell? source segment index
    cell.read? ram

/-- The command that declares a name. -/
def target? (program : Program) (name : String) : Option Nat :=
  program.entries.findIdx? fun entry => entry.command.declares? == some name

/-- A point that follows a call. -/
def isReturnPoint (program : Program) : Nat → Bool
  | 0 => program.start?.isSome
  | i + 1 =>
    match program.entries[i]? with
    | some ⟨_, .call _ _⟩ => true
    | _ => false

/-- The point that follows a call and has an address. -/
def returnPoint? (program : Program) (back : Word) : Option Nat :=
  (List.range (program.entries.length + 1)).find? fun i =>
    program.isReturnPoint i && program.address i == back.toNat

theorem address_of_returnPoint? {program : Program} {back : Word} {i : Nat}
    (h : program.returnPoint? back = some i) :
    program.isReturnPoint i = true ∧ program.address i = back.toNat := by
  have hfound := List.find?_some h
  obtain ⟨hpoint, haddress⟩ := Bool.and_eq_true_iff.mp hfound
  exact ⟨hpoint, eq_of_beq haddress⟩

/-- Calls a function and comes back to command `back`. -/
def call (program : Program) (back : Nat) (function : String) (arguments : Int) (ram : Ram) :
    Option Configuration := do
  let target ← program.target? function
  let entered ← ram.enter (BitVec.ofNat 16 (program.address back)) arguments
  some ⟨.command target, entered⟩

/-- Carries out command `i`. -/
def execute (program : Program) (i : Nat) (entry : Entry) (ram : Ram) : Option Configuration :=
  match entry.command with
  | .arithmetic word => do
    let operator ← Operator.ofWord? word
    let result ← operator.apply ram
    some ⟨.command (i + 1), result⟩
  | .push word index => do
    let segment ← Segment.ofWord? word
    let value ← program.value? entry.source segment index ram
    let result ← ram.push value
    some ⟨.command (i + 1), result⟩
  | .pop word index => do
    let segment ← Segment.ofWord? word
    let cell ← program.cell? entry.source segment index
    let result ← cell.pop ram
    some ⟨.command (i + 1), result⟩
  | .label _ => some ⟨.command (i + 1), ram⟩
  | .goto name => do
    let target ← program.target? name
    some ⟨.command target, ram⟩
  | .ifGoto name => do
    let (word, rest) ← ram.pop
    if word = 0 then
      some ⟨.command (i + 1), rest⟩
    else
      let target ← program.target? name
      some ⟨.command target, rest⟩
  | .function _ locals => do
    let result ← ram.pushZeros locals.toNat
    some ⟨.command (i + 1), result⟩
  | .call function arguments => program.call (i + 1) function arguments ram
  | .ret => do
    let (back, left) ← ram.leave
    let target ← program.returnPoint? back
    some ⟨.command target, left⟩

/-- The rules by which command `i` of the program, which stands in a source, is carried out. -/
inductive Executes (program : Program) (i : Nat) (source : String) (ram : Ram) :
    Command → Configuration → Prop
  | operate {word : String} {operator : Operator} {result : Ram}
      (hoperator : Operator.ofWord? word = some operator)
      (hresult : operator.apply ram = some result) :
      Executes program i source ram (.arithmetic word) ⟨.command (i + 1), result⟩
  | push {word : String} {segment : Segment} {index : Int} {value : Word} {result : Ram}
      (hsegment : Segment.ofWord? word = some segment)
      (hvalue : program.value? source segment index ram = some value)
      (hresult : ram.push value = some result) :
      Executes program i source ram (.push word index) ⟨.command (i + 1), result⟩
  | pop {word : String} {segment : Segment} {index : Int} {cell : Cell} {result : Ram}
      (hsegment : Segment.ofWord? word = some segment)
      (hcell : program.cell? source segment index = some cell)
      (hresult : cell.pop ram = some result) :
      Executes program i source ram (.pop word index) ⟨.command (i + 1), result⟩
  | label (name : String) : Executes program i source ram (.label name) ⟨.command (i + 1), ram⟩
  | goto {name : String} {target : Nat} (htarget : program.target? name = some target) :
      Executes program i source ram (.goto name) ⟨.command target, ram⟩
  | stay (name : String) {rest : Ram} (hpop : ram.pop = some (0, rest)) :
      Executes program i source ram (.ifGoto name) ⟨.command (i + 1), rest⟩
  | jump {name : String} {word : Word} {rest : Ram} {target : Nat}
      (hpop : ram.pop = some (word, rest)) (hword : word ≠ 0)
      (htarget : program.target? name = some target) :
      Executes program i source ram (.ifGoto name) ⟨.command target, rest⟩
  | function (name : String) {locals : Int} {result : Ram}
      (hresult : ram.pushZeros locals.toNat = some result) :
      Executes program i source ram (.function name locals) ⟨.command (i + 1), result⟩
  | call {name : String} {arguments : Int} {target : Nat} {entered : Ram}
      (htarget : program.target? name = some target)
      (henter : ram.enter (BitVec.ofNat 16 (program.address (i + 1))) arguments = some entered) :
      Executes program i source ram (.call name arguments) ⟨.command target, entered⟩
  | ret {back : Word} {left : Ram} {target : Nat} (hleave : ram.leave = some (back, left))
      (htarget : program.returnPoint? back = some target) :
      Executes program i source ram .ret ⟨.command target, left⟩

/-- A command is carried out as the rules say. -/
theorem execute_eq_some_iff {program : Program} {i : Nat} {source : String} {command : Command}
    {ram : Ram} {after : Configuration} :
    program.execute i ⟨source, command⟩ ram = some after ↔
      program.Executes i source ram command after := by
  constructor
  · intro h
    cases command with
    | arithmetic word =>
        obtain ⟨operator, hoperator, h⟩ := Option.bind_eq_some_iff.mp h
        obtain ⟨result, hresult, hafter⟩ := Option.bind_eq_some_iff.mp h
        exact Option.some.inj hafter ▸ .operate hoperator hresult
    | push word index =>
        obtain ⟨segment, hsegment, h⟩ := Option.bind_eq_some_iff.mp h
        obtain ⟨value, hvalue, h⟩ := Option.bind_eq_some_iff.mp h
        obtain ⟨result, hresult, hafter⟩ := Option.bind_eq_some_iff.mp h
        exact Option.some.inj hafter ▸ .push hsegment hvalue hresult
    | pop word index =>
        obtain ⟨segment, hsegment, h⟩ := Option.bind_eq_some_iff.mp h
        obtain ⟨cell, hcell, h⟩ := Option.bind_eq_some_iff.mp h
        obtain ⟨result, hresult, hafter⟩ := Option.bind_eq_some_iff.mp h
        exact Option.some.inj hafter ▸ .pop hsegment hcell hresult
    | label name => exact Option.some.inj h ▸ .label name
    | goto name =>
        obtain ⟨target, htarget, hafter⟩ := Option.bind_eq_some_iff.mp h
        exact Option.some.inj hafter ▸ .goto htarget
    | ifGoto name =>
        obtain ⟨⟨word, rest⟩, hpop, h⟩ := Option.bind_eq_some_iff.mp h
        dsimp only at h
        split at h
        · next hword =>
          subst hword
          exact Option.some.inj h ▸ .stay name hpop
        · next hword =>
          obtain ⟨target, htarget, hafter⟩ := Option.bind_eq_some_iff.mp h
          exact Option.some.inj hafter ▸ .jump hpop hword htarget
    | function name locals =>
        obtain ⟨result, hresult, hafter⟩ := Option.bind_eq_some_iff.mp h
        exact Option.some.inj hafter ▸ .function name hresult
    | call name arguments =>
        obtain ⟨target, htarget, h⟩ := Option.bind_eq_some_iff.mp h
        obtain ⟨entered, hentered, hafter⟩ := Option.bind_eq_some_iff.mp h
        exact Option.some.inj hafter ▸ .call htarget hentered
    | ret =>
        obtain ⟨⟨back, left⟩, hleave, h⟩ := Option.bind_eq_some_iff.mp h
        obtain ⟨target, htarget, hafter⟩ := Option.bind_eq_some_iff.mp h
        exact Option.some.inj hafter ▸ .ret hleave htarget
  · intro h
    cases h with
    | operate hoperator hresult => simp [execute, hoperator, hresult]
    | push hsegment hvalue hresult => simp [execute, hsegment, hvalue, hresult]
    | pop hsegment hcell hresult => simp [execute, hsegment, hcell, hresult]
    | label name => rfl
    | goto htarget => simp [execute, htarget]
    | stay name hpop => simp [execute, hpop]
    | jump hpop hword htarget =>
        simpa [execute, hpop, htarget] using fun hzero => absurd hzero hword
    | function name hresult => simp [execute, hresult]
    | call htarget henter => simp [execute, call, htarget, henter]
    | ret hleave htarget => simp [execute, hleave, htarget]

/-- One step of the stack machine. -/
def step (program : Program) (configuration : Configuration) : Option Configuration :=
  match configuration.next with
  | .start =>
    match program.start? with
    | some base =>
      program.call 0 entryFunction 0 (configuration.ram.setRegister .sp (BitVec.ofInt 16 base))
    | none => some ⟨.command 0, configuration.ram⟩
  | .command i => do
    let entry ← program.entries[i]?
    program.execute i entry configuration.ram

/-- Makes a number of steps. -/
def stepTimes (program : Program) : Nat → Configuration → Option Configuration
  | 0, configuration => some configuration
  | count + 1, configuration => do
    let next ← program.step configuration
    program.stepTimes count next

end Program

end HackVm
