import HackVm.Proofs.Reference.Frames
import HackVm.Proofs.Simulation.Commands

/-!
# Operators are exact

`Operator.value` says in terms of integers what an operator makes of the numbers in its operand
cells: sums, differences and complements modulo the size of a word, and comparisons of the signed
numbers that the words stand for.

```text
operands    stack before          stack after
two         ... x y               ... z             z in the cell of x
one         ... y                 ... z             z in the cell of y
```

The machine computes exactly these numbers, for all operands (`operators_exact`).  The order of two
operands cannot be read off their difference, which may wrap around; where the signs differ they
decide alone.  For that the code keeps an operand in the scratch register, the only cell outside
the stack that any operator changes.
-/

namespace HackVm

open Emit Hack

/-! ## Operators on numbers -/

namespace Operator

/-- The number of operands. -/
def arity : Operator → Nat
  | .neg => 1
  | .not => 1
  | _ => 2

/-- The operator asks for the order of its operands. -/
def isOrder : Operator → Bool
  | .gt => true
  | .lt => true
  | _ => false

/-- What an operator makes of the numbers in its operand cells, where `y` is on top of the stack.
An operator with one operand takes no account of `x`. -/
def value (operator : Operator) (x y : Int) : Int :=
  match operator with
  | .add => (x + y) % 2 ^ 16
  | .sub => (x - y) % 2 ^ 16
  | .and => (x.toNat &&& y.toNat : Nat)
  | .or => (x.toNat ||| y.toNat : Nat)
  | .neg => (-y) % 2 ^ 16
  | .not => (~~~y) % 2 ^ 16
  | .eq => if signed x = signed y then 0xFFFF else 0
  | .gt => if signed x > signed y then 0xFFFF else 0
  | .lt => if signed x < signed y then 0xFFFF else 0

/-- The word that an operator leaves in the place of its operands. -/
def combine (operator : Operator) (x y : Word) : Word :=
  match operator with
  | .add => x + y
  | .sub => x - y
  | .and => x &&& y
  | .or => x ||| y
  | .neg => -y
  | .not => ~~~y
  | .eq => truth (x = y)
  | .gt => truth (y.toInt < x.toInt)
  | .lt => truth (x.toInt < y.toInt)

private theorem signed_toNat (word : Word) : signed word.toNat = word.toInt := by
  simp [signed]

private theorem toNat_truth (p : Prop) [Decidable p] :
    ((truth p).toNat : Int) = if p then 0xFFFF else 0 := by
  unfold truth
  by_cases hp : p <;> simp [hp]

/-- The words are the numbers. -/
theorem toNat_combine (operator : Operator) (x y : Word) :
    ((operator.combine x y).toNat : Int) = operator.value x.toNat y.toNat := by
  have hx := x.isLt
  have hy := y.isLt
  unfold combine value
  cases operator with
  | add =>
      dsimp only
      rw [BitVec.toNat_add]
      omega
  | sub =>
      dsimp only
      rw [BitVec.toNat_sub]
      omega
  | and => simp
  | or => simp
  | neg =>
      dsimp only
      rw [BitVec.toNat_neg]
      omega
  | not =>
      dsimp only
      have hnot : ~~~(y.toNat : Int) = -(y.toNat + 1) := Int.negSucc_eq y.toNat
      rw [BitVec.toNat_not, hnot]
      omega
  | eq => simp only [toNat_truth, signed_toNat, BitVec.toInt_inj]
  | gt => simp only [toNat_truth, signed_toNat, gt_iff_lt]
  | lt => simp only [toNat_truth, signed_toNat]

end Operator

/-! ## Operators on memory -/

namespace Ram

/-- A word was computed in the cell that is on top of the stack now.  If a scratch register was
needed it has changed as well, and no other cell. -/
structure Computed (before : Ram) (place : Nat) (word : Word) (scratch : Bool) (after : Ram) :
    Prop where
  pointer : after.pointer .sp = place + 1
  result : after.read? place = some word
  other : ∀ address, address ≠ Register.sp.cell → address ≠ place →
    (scratch = true → address ≠ Register.scratch.cell) → after.read? address = before.read? address

theorem lt_of_read? {ram : Ram} {address : Nat} {word : Word}
    (h : ram.read? address = some word) : address < memorySize := by
  rw [read?] at h
  exact (Vector.getElem?_eq_some_iff.mp h).1

theorem toNat_top {ram : Ram} {place : Nat} (hpointer : ram.pointer .sp = place + 1) :
    ram.top.toNat = place := by
  have hsub : ram.top.toNat = (ram.register .sp).toNat - 1 :=
    toNat_sub_ofNat (show 1 ≤ ram.pointer .sp by omega)
  exact hsub.trans (show ram.pointer .sp - 1 = place by omega)

/-- The word on top is replaced. -/
theorem exists_replaceTop {ram : Ram} {place : Nat} {word : Word} (hplace : 16 ≤ place)
    (hpointer : ram.pointer .sp = place + 1) (hread : ram.read? place = some word)
    (f : Word → Word) :
    ∃ after, ram.replaceTop f = some after ∧ Computed ram place (f word) false after := by
  have htop := toNat_top hpointer
  obtain ⟨after, hwrite⟩ : ∃ after, ram.write? place (f word) = some after := by
    rw [write?, dif_pos (lt_of_read? hread)]
    exact ⟨_, rfl⟩
  have hkept : ∀ address, address ≠ place → after.read? address = ram.read? address :=
    fun address hne => read?_of_write?_of_ne hwrite hne
  refine ⟨after, ?_, ?_, read?_of_write? hwrite, fun address _ hne _ => hkept address hne⟩
  · rw [replaceTop, htop, hread]
    exact hwrite
  · have hsp : after.register .sp = ram.register .sp :=
      register_eq_of_read? (hkept _ (ne_cell_of_le hplace .sp).symm)
    rw [pointer, hsp]
    exact hpointer

/-- The word on top is taken off: the stack pointer goes down, and nothing else changes. -/
theorem exists_pop {ram : Ram} {place : Nat} {word : Word} (hplace : 16 ≤ place)
    (hpointer : ram.pointer .sp = place + 1) (hread : ram.read? place = some word) :
    ∃ rest, ram.pop = some (word, rest) ∧ rest.pointer .sp = place ∧
      ∀ address, address ≠ Register.sp.cell → rest.read? address = ram.read? address := by
  have htop := toNat_top hpointer
  have hkept : ∀ address, address ≠ Register.sp.cell →
      (ram.setRegister .sp ram.top).read? address = ram.read? address :=
    fun address hne => read?_setRegister_of_ne ram hne _
  refine ⟨ram.setRegister .sp ram.top, ?_, ?_, hkept⟩
  · rw [pop, htop, hkept _ (ne_cell_of_le hplace .sp), hread]
    rfl
  · rw [pointer, register_setRegister_self]
    exact htop

variable {ram : Ram} {place : Nat} {x y : Word} (hplace : 16 ≤ place)
  (hpointer : ram.pointer .sp = place + 2) (hx : ram.read? place = some x)
  (hy : ram.read? (place + 1) = some y)

include hplace hpointer hx hy

/-- Two words are combined in the cell of the lower one. -/
theorem exists_combine (f : Word → Word → Word) :
    ∃ after, ram.combine f = some after ∧ Computed ram place (f x y) false after := by
  obtain ⟨rest, hpop, hlower, hkept⟩ := exists_pop (Nat.le_succ_of_le hplace) hpointer hy
  have hread : rest.read? place = some x := by
    rw [hkept _ (ne_cell_of_le hplace .sp)]
    exact hx
  obtain ⟨after, hreplace, hcomputed⟩ := exists_replaceTop hplace hlower hread (f · y)
  refine ⟨after, ?_, hcomputed.pointer, hcomputed.result, ?_⟩
  · rw [combine, hpop]
    exact hreplace
  · intro address hsp hne hscratch
    rw [hcomputed.other address hsp hne hscratch, hkept address hsp]

/-- The same, with the upper one kept in the scratch register. -/
theorem exists_combineOrdered (f : Word → Word → Word) :
    ∃ after, ram.combineOrdered f = some after ∧ Computed ram place (f x y) true after := by
  obtain ⟨rest, hpop, hlower, hkept⟩ := exists_pop (Nat.le_succ_of_le hplace) hpointer hy
  have hread : (rest.setRegister .scratch y).read? place = some x := by
    rw [read?_setRegister_of_ne _ (ne_cell_of_le hplace .scratch),
      hkept _ (ne_cell_of_le hplace .sp)]
    exact hx
  have hsame : (rest.setRegister .scratch y).pointer .sp = place + 1 := by
    rw [pointer_setRegister_of_ne _ (by decide)]
    exact hlower
  obtain ⟨after, hreplace, hcomputed⟩ := exists_replaceTop hplace hsame hread (f · y)
  refine ⟨after, ?_, hcomputed.pointer, hcomputed.result, ?_⟩
  · rw [combineOrdered, hpop]
    exact hreplace
  · intro address hsp hne hscratch
    rw [hcomputed.other address hsp hne (by simp), read?_setRegister_of_ne _ (hscratch rfl),
      hkept address hsp]

end Ram

/-- With its operands on the stack, an operator computes its word. -/
theorem Operator.exists_apply (operator : Operator) {ram : Ram} {s : Nat} {x y : Word}
    (hpointer : ram.pointer .sp = s) (hoperands : 16 + operator.arity ≤ s)
    (hx : ram.read? (s - 2) = some x) (hy : ram.read? (s - 1) = some y) :
    ∃ after, operator.apply ram = some after ∧
      ram.Computed (s - operator.arity) (operator.combine x y) operator.isOrder after := by
  have hunary (hle : 17 ≤ s) := Ram.exists_replaceTop (by omega)
    (show ram.pointer .sp = s - 1 + 1 by omega) hy
  have htop (hle : 18 ≤ s) : ram.read? (s - 2 + 1) = some y := by
    rw [show s - 2 + 1 = s - 1 by omega]
    exact hy
  have hbinary (hle : 18 ≤ s) := Ram.exists_combine (by omega)
    (show ram.pointer .sp = s - 2 + 2 by omega) hx (htop hle)
  have hordered (hle : 18 ≤ s) := Ram.exists_combineOrdered (by omega)
    (show ram.pointer .sp = s - 2 + 2 by omega) hx (htop hle)
  cases operator with
  | neg => exact hunary hoperands fun y => -y
  | not => exact hunary hoperands fun y => ~~~y
  | add => exact hbinary hoperands fun x y => x + y
  | sub => exact hbinary hoperands fun x y => x - y
  | and => exact hbinary hoperands fun x y => x &&& y
  | or => exact hbinary hoperands fun x y => x ||| y
  | eq => exact hbinary hoperands fun x y => truth (x = y)
  | gt => exact hordered hoperands fun x y => truth (y.toInt < x.toInt)
  | lt => exact hordered hoperands fun x y => truth (x.toInt < y.toInt)

/-! ## Operators on the machine -/

/-- The machine's stack pointer is the one of the stack machine. -/
theorem Core.stackPointer_state (core : Core) (pc steps : Nat) :
    (core.state pc steps).stackPointer = core.ram.pointer .sp := by
  have hread : core.ram.read? 0 = some (core.ram.register .sp) := core.ram.read?_cell .sp
  have hcell := Ram.getElem?_cells hread
  rw [Vector.getElem?_eq_getElem (by decide)] at hcell
  exact Option.some.inj hcell

variable {settings : Settings} {sources : List Source} {image : Image}

/-- The block of an arithmetic command in program memory. -/
theorem Builds.operator_block (h : Builds settings sources image) (hnames : SingleLineNames sources)
    {i : Nat} {source word : String}
    (hentry : (listing sources)[i]? = some ⟨source, .arithmetic word⟩) :
    ∃ (operator : Operator) (session : Session), Operator.ofWord? word = some operator ∧
      image.LaysOut (address settings sources i) (session.operate operator).2 ∧
      address settings sources (i + 1) =
        address settings sources i + codeSize (session.operate operator).2 := by
  obtain ⟨session, next, body, -, hblock, hlaid, hnext, -⟩ := h.block hnames hentry
  cases block_eq_ok_iff.mp hblock with
  | operate hoperator => exact ⟨_, session, hoperator, hlaid, hnext⟩

/-- Every arithmetic command of a program is exact, wherever it stands and whatever its operands
are.  With them above the registers the machine comes from the first instruction of its block to the
first one after it; then the stack ends with the value of the operator, and no cell has changed but
the stack pointer, the cell of the result and, for an operator on order, the scratch register. -/
theorem operators_exact (h : Builds settings sources image) (hnames : SingleLineNames sources)
    (hclean : ∀ entry ∈ listing sources, ∀ name ∈ entry.command.declares?,
      predefined.lookup name = none)
    {i : Nat} {source word : String}
    (hentry : (listing sources)[i]? = some ⟨source, .arithmetic word⟩) {state : State}
    (hpc : state.pc = address settings sources i)
    (hcells : ∀ cell ∈ state.memory.toList, 0 ≤ cell ∧ cell ≤ 65535) :
    ∃ operator, Operator.ofWord? word = some operator ∧
      ∀ (s : Nat) (x y : Int), state.stackPointer = s → 16 + operator.arity ≤ s →
        state.memory[s - 2]? = some x → state.memory[s - 1]? = some y →
        ∃ (made : Nat) (final : State), State.stepTimes image.rom made state = (final, none) ∧
          final.pc = address settings sources (i + 1) ∧
          final.stackPointer = (s - operator.arity + 1 : Nat) ∧
          final.memory[s - operator.arity]? = some (operator.value x y) ∧
          ∀ cell, cell ≠ 0 → cell ≠ s - operator.arity → (operator.isOrder = true → cell ≠ 13) →
            final.memory[cell]? = state.memory[cell]? := by
  -- A register is what its name says, since nothing is declared under a predefined name.
  have hregister := meaning_register_of_unshadowed h hnames hclean
  obtain ⟨operator, session, hoperator, hlaid, hnext⟩ := h.operator_block hnames hentry
  refine ⟨operator, hoperator, ?_⟩
  intro s x y hsp hoperands hx hy
  -- The cells are words, so the state is one of the stack machine's.
  obtain ⟨a, d, pc, memory, steps⟩ := state
  obtain ⟨ram, rfl⟩ := Ram.exists_cells_eq hcells
  dsimp only at hpc hx hy
  subst hpc
  rw [Ram.getElem?_cells_eq, Option.map_eq_some_iff] at hx hy
  obtain ⟨x, hx, rfl⟩ := hx
  obtain ⟨y, hy, rfl⟩ := hy
  have hpointer : ram.pointer .sp = s :=
    Int.ofNat.inj ((Core.stackPointer_state ⟨a, d, ram⟩ _ steps).symm.trans hsp)
  obtain ⟨result, happly, hcomputed⟩ := operator.exists_apply hpointer hoperands hx hy
  obtain ⟨last, rfl, made, hmade⟩ :=
    @reaches_operate _ hregister _ _ _ ⟨a, d, ram⟩ _ hlaid happly steps
  refine ⟨made, _, hmade, hnext.symm, ?_, ?_, ?_⟩
  · rw [Core.stackPointer_state, hcomputed.pointer]
  · calc last.ram.cells[s - operator.arity]?
        = some ((operator.combine x y).toNat : Int) := Ram.getElem?_cells hcomputed.result
      _ = some (operator.value x.toNat y.toNat) := congrArg some (operator.toNat_combine x y)
  · intro cell hsp hresult hscratch
    calc last.ram.cells[cell]?
        = (last.ram.read? cell).map fun word => (word.toNat : Int) := Ram.getElem?_cells_eq _ _
      _ = (ram.read? cell).map fun word => (word.toNat : Int) := by
          rw [hcomputed.other cell hsp hresult hscratch]
      _ = ram.cells[cell]? := (Ram.getElem?_cells_eq _ _).symm

private def orderSample : List Source := [⟨"Main", ["push constant 7", "gt"]⟩]

/-- The stack holds the greatest number and above it the least one. -/
private def orderStart : State :=
  { State.initial with
    pc := 7
    memory := .ofFn fun cell =>
      if cell.val = 0 then 258
      else if cell.val = 256 then 0x7FFF
      else if cell.val = 257 then 0x8000
      else 0 }

/-- The greater number is found although the difference wraps around to a negative one. -/
theorem operators_exact_sample :
    ∃ (image : Image) (made : Nat) (final : State), Builds ⟨false, false, 256⟩ orderSample image ∧
      State.stepTimes image.rom made orderStart = (final, none) ∧
      final.stackPointer = 257 ∧ final.memory[256]? = some 0xFFFF := by
  have hsome : (build? ⟨false, false, 256⟩ orderSample).isSome = true := by decide +kernel
  obtain ⟨image, himage⟩ := Option.isSome_iff_exists.mp hsome
  have hbuilds := builds_of_build? (by decide) himage
  have hentry : (listing orderSample)[1]? = some ⟨"Main", .arithmetic "gt"⟩ := by decide +kernel
  have hpc : orderStart.pc = address ⟨false, false, 256⟩ orderSample 1 := by decide +kernel
  have hcells : ∀ cell ∈ orderStart.memory.toList, 0 ≤ cell ∧ cell ≤ 65535 := by
    intro cell hmem
    obtain ⟨i, hi, rfl⟩ := List.mem_iff_getElem.mp hmem
    simp only [orderStart, Vector.getElem_toList, Vector.getElem_ofFn]
    split_ifs <;> decide
  obtain ⟨operator, hoperator, hexact⟩ :=
    operators_exact hbuilds (by decide) (by decide +kernel) hentry hpc hcells
  obtain rfl : Operator.gt = operator := Option.some.inj hoperator
  have hsp : orderStart.stackPointer = 258 := by simp [State.stackPointer, orderStart]
  have hx : orderStart.memory[256]? = some 0x7FFF := by
    rw [Vector.getElem?_eq_getElem (by decide)]
    simp [orderStart]
  have hy : orderStart.memory[257]? = some 0x8000 := by
    rw [Vector.getElem?_eq_getElem (by decide)]
    simp [orderStart]
  obtain ⟨made, final, hmade, -, hpointer, hresult, -⟩ := hexact 258 _ _ hsp (by decide) hx hy
  exact ⟨image, made, final, hbuilds, hmade, hpointer, hresult⟩

end HackVm
