import HackVm.Emit.Block
import HackVm.Hack.Machine

/-!
# Memory of the stack machine

The stack machine keeps everything in a memory of words: the registers in its first cells, the
stack, and whatever the registers point to.  An access outside the memory fails.

Every operation is a function on the memory as a whole, and says in which order it reads and
writes.  The stack may therefore lie anywhere, even over the registers.  The scratch cells belong
to the memory: a pop through a register keeps the address there, an ordered comparison its second
operand, and a return the frame and the return address.
-/

namespace HackVm

open Emit Hack

/-- The cell of a register. -/
def Emit.Register.cell : Register → Nat
  | .sp => 0
  | .lcl => 1
  | .arg => 2
  | .this => 3
  | .that => 4
  | .scratch => 13
  | .frame => 14

theorem Emit.Register.cell_lt (register : Register) : register.cell < memorySize := by
  cases register <;> decide

theorem Emit.Register.cell_injective {first second : Register} (h : first.cell = second.cell) :
    first = second := by
  revert h
  cases first <;> cases second <;> decide

/-- A memory of words. -/
abbrev Ram := Vector Word memorySize

namespace Ram

/-- The memory of the machine that holds these words. -/
def cells (ram : Ram) : Memory :=
  ram.map fun word => (word.toNat : Int)

/-! ## Cells -/

/-- The word in a cell. -/
def read? (ram : Ram) (address : Nat) : Option Word :=
  ram[address]?

/-- Puts a word into a cell. -/
def write? (ram : Ram) (address : Nat) (word : Word) : Option Ram :=
  if h : address < memorySize then some (ram.set address word h) else none

/-- The word in a register. -/
def register (ram : Ram) (register : Register) : Word :=
  getElem ram register.cell register.cell_lt

/-- Puts a word into a register. -/
def setRegister (ram : Ram) (register : Register) (word : Word) : Ram :=
  Vector.set ram register.cell word register.cell_lt

@[simp] theorem read?_cell (ram : Ram) (r : Register) :
    ram.read? r.cell = some (ram.register r) := by
  rw [read?, Vector.getElem?_eq_getElem r.cell_lt]
  rfl

@[simp] theorem write?_cell (ram : Ram) (r : Register) (word : Word) :
    ram.write? r.cell word = some (ram.setRegister r word) := by
  rw [write?, dif_pos r.cell_lt]
  rfl

@[simp] theorem register_setRegister_self (ram : Ram) (r : Register) (word : Word) :
    (ram.setRegister r word).register r = word := by
  simp [register, setRegister]

theorem register_setRegister_of_ne (ram : Ram) {r other : Register} (hne : other ≠ r)
    (word : Word) : (ram.setRegister r word).register other = ram.register other := by
  have hcell : r.cell ≠ other.cell := fun h => hne (Register.cell_injective h.symm)
  simp [register, setRegister, hcell]

theorem read?_setRegister_of_ne (ram : Ram) {r : Register} {address : Nat} (hne : address ≠ r.cell)
    (word : Word) : (ram.setRegister r word).read? address = ram.read? address := by
  rw [read?, setRegister, Vector.getElem?_set_ne r.cell_lt hne.symm]
  rfl

theorem lt_of_write? {ram written : Ram} {address : Nat} {word : Word}
    (h : ram.write? address word = some written) : address < memorySize := by
  unfold write? at h
  split at h
  · assumption
  · exact absurd h (by simp)

theorem read?_of_write? {ram written : Ram} {address : Nat} {word : Word}
    (h : ram.write? address word = some written) : written.read? address = some word := by
  have haddress := lt_of_write? h
  rw [write?, dif_pos haddress] at h
  rw [← Option.some.inj h, read?, Vector.getElem?_set_self haddress]

theorem read?_of_write?_of_ne {ram written : Ram} {address other : Nat} {word : Word}
    (h : ram.write? address word = some written) (hne : other ≠ address) :
    written.read? other = ram.read? other := by
  have haddress := lt_of_write? h
  rw [write?, dif_pos haddress] at h
  rw [← Option.some.inj h, read?, Vector.getElem?_set_ne haddress hne.symm]
  rfl

/-! ### The machine's memory -/

theorem getElem?_cells_eq (ram : Ram) (address : Nat) :
    ram.cells[address]? = (ram.read? address).map fun word => (word.toNat : Int) := by
  rw [cells, Vector.getElem?_map]
  rfl

theorem getElem?_cells {ram : Ram} {address : Nat} {word : Word}
    (h : ram.read? address = some word) : ram.cells[address]? = some (word.toNat : Int) := by
  rw [getElem?_cells_eq, h, Option.map_some]

/-- A memory of the machine that holds words only is the memory of these words. -/
theorem exists_cells_eq {memory : Memory}
    (h : ∀ cell ∈ memory.toList, 0 ≤ cell ∧ cell ≤ 65535) : ∃ ram : Ram, ram.cells = memory := by
  refine ⟨memory.map (BitVec.ofInt 16), ?_⟩
  ext i hi
  obtain ⟨hlow, hhigh⟩ := h memory[i] (Vector.mem_toList_iff.mpr (Vector.getElem_mem hi))
  rw [cells, Vector.getElem_map, Vector.getElem_map, BitVec.toNat_ofInt]
  omega

theorem cells_of_write? {ram written : Ram} {address : Nat} {word : Word}
    (h : ram.write? address word = some written) :
    ∃ haddress : address < memorySize,
      written.cells = ram.cells.set address word.toNat haddress := by
  unfold write? at h
  split at h
  · next haddress =>
    refine ⟨haddress, ?_⟩
    rw [← Option.some.inj h, cells, cells, Vector.map_set]
  · exact absurd h (by simp)

theorem cells_replicate (word : Word) :
    cells (Vector.replicate memorySize word) = Vector.replicate memorySize (word.toNat : Int) :=
  Vector.map_replicate

attribute [irreducible] read? write? register setRegister cells

/-! ## The stack -/

/-- The address of the word on top of the stack. -/
def top (ram : Ram) : Word :=
  ram.register .sp - 1#16

@[simp] theorem register_sp_sub_one (ram : Ram) : ram.register .sp - 1#16 = ram.top := rfl

/-- Puts a word on the stack. -/
def push (ram : Ram) (word : Word) : Option Ram := do
  let stored ← ram.write? (ram.register .sp).toNat word
  some (stored.setRegister .sp (stored.register .sp + 1#16))

/-- Takes a word off the stack. -/
def pop (ram : Ram) : Option (Word × Ram) := do
  let lowered := ram.setRegister .sp ram.top
  let word ← lowered.read? ram.top.toNat
  some (word, lowered)

theorem pop_eq_some {ram rest : Ram} {word : Word} (h : ram.pop = some (word, rest)) :
    rest = ram.setRegister .sp ram.top ∧ rest.read? ram.top.toNat = some word := by
  obtain ⟨found, hread, hpair⟩ := Option.bind_eq_some_iff.mp h
  obtain ⟨rfl, rfl⟩ := Prod.mk.inj (Option.some.inj hpair)
  exact ⟨rfl, hread⟩

/-- Replaces the word on top of the stack. -/
def replaceTop (ram : Ram) (f : Word → Word) : Option Ram := do
  let word ← ram.read? ram.top.toNat
  ram.write? ram.top.toNat (f word)

/-- Puts zeros on the stack. -/
def pushZeros (ram : Ram) : Nat → Option Ram
  | 0 => some ram
  | count + 1 => do
    let pushed ← ram.push 0#16
    pushed.pushZeros count

/-- Takes the top off the stack and combines it with the word below, in its place. -/
def combine (ram : Ram) (f : Word → Word → Word) : Option Ram := do
  let (top, rest) ← ram.pop
  rest.replaceTop (f · top)

/-- The same, with the top kept in the scratch register. -/
def combineOrdered (ram : Ram) (f : Word → Word → Word) : Option Ram := do
  let (top, rest) ← ram.pop
  (rest.setRegister .scratch top).replaceTop (f · top)

/-! ## Calls -/

/-- Makes a frame for a call and moves on to its arguments and local variables. -/
def enter (ram : Ram) (back : Word) (arguments : Int) : Option Ram := do
  let ram ← ram.push back
  let ram ← ram.push (ram.register .lcl)
  let ram ← ram.push (ram.register .arg)
  let ram ← ram.push (ram.register .this)
  let ram ← ram.push (ram.register .that)
  let ram := ram.setRegister .arg (ram.register .sp - BitVec.ofInt 16 (5 + arguments))
  some (ram.setRegister .lcl (ram.register .sp))

theorem enter_eq_some {ram entered : Ram} {back : Word} {arguments : Int}
    (h : ram.enter back arguments = some entered) :
    ∃ first second third fourth fifth : Ram,
      ram.push back = some first ∧ first.push (first.register .lcl) = some second ∧
      second.push (second.register .arg) = some third ∧
      third.push (third.register .this) = some fourth ∧
      fourth.push (fourth.register .that) = some fifth ∧
      entered =
        (fifth.setRegister .arg
          (fifth.register .sp - BitVec.ofInt 16 (5 + arguments))).setRegister
            .lcl (fifth.register .sp) := by
  obtain ⟨first, hfirst, h⟩ := Option.bind_eq_some_iff.mp h
  obtain ⟨second, hsecond, h⟩ := Option.bind_eq_some_iff.mp h
  obtain ⟨third, hthird, h⟩ := Option.bind_eq_some_iff.mp h
  obtain ⟨fourth, hfourth, h⟩ := Option.bind_eq_some_iff.mp h
  obtain ⟨fifth, hfifth, h⟩ := Option.bind_eq_some_iff.mp h
  refine ⟨first, second, third, fourth, fifth, hfirst, hsecond, hthird, hfourth, hfifth, ?_⟩
  rw [← Option.some.inj h, register_setRegister_of_ne _ (by decide)]

/-- Restores a register from the cell at a distance below the frame's end. -/
def restore (ram : Ram) (distance : Nat) (register : Register) : Option Ram := do
  let word ← ram.read? (ram.register .frame - BitVec.ofNat 16 distance).toNat
  some (ram.setRegister register word)

/-- Leaves a function: the return address and the memory of the caller, with the result on its
stack.  The return address is read before the result is stored. -/
def leave (ram : Ram) : Option (Word × Ram) := do
  let ram := ram.setRegister .frame (ram.register .lcl)
  let back ← ram.read? (ram.register .frame - 5#16).toNat
  let ram := ram.setRegister .scratch back
  let (result, ram) ← ram.pop
  let ram ← ram.write? (ram.register .arg).toNat result
  let ram := ram.setRegister .sp (ram.register .arg + 1#16)
  let ram ← ram.restore 1 .that
  let ram ← ram.restore 2 .this
  let ram ← ram.restore 3 .arg
  let ram ← ram.restore 4 .lcl
  some (ram.register .scratch, ram)

theorem leave_eq_some {ram left : Ram} {back : Word} (h : ram.leave = some (back, left)) :
    ∃ (saved : Word) (framed popped stored : Ram) (result : Word) (first second third : Ram),
      framed = ram.setRegister .frame (ram.register .lcl) ∧
      framed.read? (ram.register .lcl - 5#16).toNat = some saved ∧
      (framed.setRegister .scratch saved).pop = some (result, popped) ∧
      popped.write? (popped.register .arg).toNat result = some stored ∧
      (stored.setRegister .sp (stored.register .arg + 1#16)).restore 1 .that = some first ∧
      first.restore 2 .this = some second ∧ second.restore 3 .arg = some third ∧
      third.restore 4 .lcl = some left ∧ back = left.register .scratch := by
  obtain ⟨saved, hsaved, h⟩ := Option.bind_eq_some_iff.mp h
  obtain ⟨⟨result, popped⟩, hpop, h⟩ := Option.bind_eq_some_iff.mp h
  obtain ⟨stored, hstored, h⟩ := Option.bind_eq_some_iff.mp h
  obtain ⟨first, hfirst, h⟩ := Option.bind_eq_some_iff.mp h
  obtain ⟨second, hsecond, h⟩ := Option.bind_eq_some_iff.mp h
  obtain ⟨third, hthird, h⟩ := Option.bind_eq_some_iff.mp h
  obtain ⟨last, hlast, h⟩ := Option.bind_eq_some_iff.mp h
  obtain ⟨rfl, rfl⟩ := Prod.mk.inj (Option.some.inj h)
  rw [register_setRegister_self] at hsaved
  exact ⟨saved, _, popped, stored, result, first, second, third, rfl, hsaved, hpop, hstored, hfirst,
    hsecond, hthird, hlast, rfl⟩

end Ram

end HackVm
