import HackVm.Proofs.Reference.Frames
import HackVm.Proofs.Reference.Machine

/-!
# What a command changes

A command that stays in the running function changes the stack pointer, the scratch register and the
stack from the stack pointer on.  Two kinds of commands also store elsewhere: a pop into the cell
that it names (`Program.popped?`), and an operator into the cell of its lowest operand
(`Program.computed?`).  `read?_of_execute` says that nothing else is changed.

If the stack is not below some address before and after an operator, the result is at most one cell
below that address (`le_resultAddress`).
-/

namespace HackVm

open Emit Hack

/-! ## Cells that commands store into -/

/-- The address of a cell. -/
def Cell.address (cell : Cell) (ram : Ram) : Nat :=
  match cell with
  | .based register index => (BitVec.ofInt 16 index + ram.register register).toNat
  | .fixed address => address

/-- The address at which an operator leaves its result. -/
def Operator.resultAddress (operator : Operator) (ram : Ram) : Nat :=
  match operator with
  | .neg => ram.top.toNat
  | .not => ram.top.toNat
  | _ => (ram.top - 1#16).toNat

/-- The command stays in the running function. -/
def Command.isLocal : Command → Bool
  | .call _ _ => false
  | .ret => false
  | _ => true

namespace Program

variable (program : Program)

/-- The command at a point. -/
def entry? : Point → Option Entry
  | .start => none
  | .command i => program.entries[i]?

/-- The cell that a pop is about to store into. -/
def popped? (configuration : Configuration) : Option Nat :=
  match program.entry? configuration.next with
  | some ⟨source, .pop word index⟩ => do
    let segment ← Segment.ofWord? word
    let cell ← program.cell? source segment index
    some (cell.address configuration.ram)
  | _ => none

/-- The cell in which an operator is about to leave its result. -/
def computed? (configuration : Configuration) : Option Nat :=
  match program.entry? configuration.next with
  | some ⟨_, .arithmetic word⟩ => do
    let operator ← Operator.ofWord? word
    some (operator.resultAddress configuration.ram)
  | _ => none

/-- The number of arguments that a call is about to pass. -/
def passed? (configuration : Configuration) : Option Int :=
  match program.entry? configuration.next with
  | some ⟨_, .call _ arguments⟩ => some arguments
  | _ => none

end Program

/-! ## One command -/

theorem read?_of_cell_pop {cell : Cell} {before after : Ram} (h : cell.pop before = some after)
    {address : Nat} (hzero : address ≠ 0) (hscratch : address ≠ 13)
    (hcell : address ≠ cell.address before) : after.read? address = before.read? address := by
  cases cell with
  | based register index =>
      obtain ⟨⟨word, rest⟩, hpop, hwrite⟩ := Option.bind_eq_some_iff.mp h
      have hkept : rest.register .scratch = BitVec.ofInt 16 index + before.register register := by
        rw [Ram.register_eq_of_read? (Ram.read?_of_pop hpop (by decide)),
          Ram.register_setRegister_self]
      dsimp only at hwrite
      rw [hkept] at hwrite
      rw [Ram.read?_of_write?_of_ne hwrite hcell, Ram.read?_of_pop hpop hzero,
        Ram.read?_setRegister_of_ne _ hscratch]
  | fixed place =>
      obtain ⟨⟨word, rest⟩, hpop, hwrite⟩ := Option.bind_eq_some_iff.mp h
      rw [Ram.read?_of_write?_of_ne hwrite hcell, Ram.read?_of_pop hpop hzero]

private theorem top_of_pop_eq {before rest : Ram} {word : Word}
    (hpop : before.pop = some (word, rest)) : rest.top = before.top - 1#16 := by
  rw [Ram.top, Ram.pointer_of_pop hpop]

private theorem read?_of_combine {before after : Ram} {f : Word → Word → Word}
    (h : before.combine f = some after) {address : Nat} (hzero : address ≠ 0)
    (hresult : address ≠ (before.top - 1#16).toNat) :
    after.read? address = before.read? address := by
  obtain ⟨⟨word, rest⟩, hpop, hreplace⟩ := Option.bind_eq_some_iff.mp h
  rw [← top_of_pop_eq hpop] at hresult
  rw [Ram.read?_of_replaceTop hreplace hresult, Ram.read?_of_pop hpop hzero]

private theorem read?_of_combineOrdered {before after : Ram} {f : Word → Word → Word}
    (h : before.combineOrdered f = some after) {address : Nat} (hzero : address ≠ 0)
    (hscratch : address ≠ 13) (hresult : address ≠ (before.top - 1#16).toNat) :
    after.read? address = before.read? address := by
  obtain ⟨⟨word, rest⟩, hpop, hreplace⟩ := Option.bind_eq_some_iff.mp h
  have htop : (rest.setRegister .scratch word).top = rest.top := by
    rw [Ram.top, Ram.register_setRegister_of_ne _ (by decide)]
    rfl
  rw [← top_of_pop_eq hpop, ← htop] at hresult
  rw [Ram.read?_of_replaceTop hreplace hresult, Ram.read?_setRegister_of_ne _ hscratch,
    Ram.read?_of_pop hpop hzero]

theorem read?_of_apply {operator : Operator} {before after : Ram}
    (h : operator.apply before = some after) {address : Nat} (hzero : address ≠ 0)
    (hscratch : address ≠ 13) (hresult : address ≠ operator.resultAddress before) :
    after.read? address = before.read? address := by
  unfold Operator.apply at h
  cases operator with
  | neg => exact Ram.read?_of_replaceTop h hresult
  | not => exact Ram.read?_of_replaceTop h hresult
  | gt => exact read?_of_combineOrdered h hzero hscratch hresult
  | lt => exact read?_of_combineOrdered h hzero hscratch hresult
  | _ => exact read?_of_combine h hzero hresult

/-- A command of the running function only changes the stack pointer, the scratch register, the
stack from the stack pointer on, and the cell that it pops or computes into. -/
theorem read?_of_execute {program : Program} {i : Nat} {entry : Entry} {ram : Ram}
    {after : Configuration} (hentry : program.entries[i]? = some entry)
    (hlocal : entry.command.isLocal = true) (h : program.execute i entry ram = some after)
    {address : Nat} (hzero : address ≠ 0) (hscratch : address ≠ 13)
    (hbelow : address < ram.pointer .sp)
    (hpopped : program.popped? ⟨.command i, ram⟩ ≠ some address)
    (hcomputed : program.computed? ⟨.command i, ram⟩ ≠ some address) :
    after.ram.read? address = ram.read? address := by
  obtain ⟨source, command⟩ := entry
  have hpoint : program.entry? (.command i) = some ⟨source, command⟩ := hentry
  cases Program.execute_eq_some_iff.mp h with
  | operate hoperator hresult =>
      refine read?_of_apply hresult hzero hscratch ?_
      rintro rfl
      exact hcomputed (by simp [Program.computed?, hpoint, hoperator])
  | push _ _ hresult =>
      have hpushed := Ram.pushed_of_push (Nat.zero_lt_of_lt hbelow) hresult
      exact hpushed.other address hzero (Or.inl hbelow)
  | pop hsegment hcell hresult =>
      refine read?_of_cell_pop hresult hzero hscratch ?_
      rintro rfl
      exact hpopped (by simp [Program.popped?, hpoint, hsegment, hcell])
  | label => rfl
  | goto => rfl
  | stay _ hpop => exact Ram.read?_of_pop hpop hzero
  | jump hpop => exact Ram.read?_of_pop hpop hzero
  | function _ hresult =>
      rw [Ram.pushZeros_eq_pushAll] at hresult
      have hpushed := Ram.pushed_of_pushAll (Nat.zero_lt_of_lt hbelow) hresult
      exact hpushed.other address hzero (Or.inl hbelow)
  | call => exact absurd hlocal (by simp [Command.isLocal])
  | ret => exact absurd hlocal (by simp [Command.isLocal])

private theorem pointer_of_combine {before after : Ram} {f : Word → Word → Word}
    (h : before.combine f = some after) (hresult : (before.top - 1#16).toNat ≠ 0) :
    after.register .sp = before.top := by
  obtain ⟨⟨word, rest⟩, hpop, hreplace⟩ := Option.bind_eq_some_iff.mp h
  rw [← top_of_pop_eq hpop] at hresult
  have hkept : after.register .sp = rest.register .sp :=
    Ram.register_eq_of_read? (Ram.read?_of_replaceTop hreplace hresult.symm)
  rw [hkept, Ram.pointer_of_pop hpop]

private theorem pointer_of_combineOrdered {before after : Ram} {f : Word → Word → Word}
    (h : before.combineOrdered f = some after) (hresult : (before.top - 1#16).toNat ≠ 0) :
    after.register .sp = before.top := by
  obtain ⟨⟨word, rest⟩, hpop, hreplace⟩ := Option.bind_eq_some_iff.mp h
  have hsp : (rest.setRegister .scratch word).register .sp = before.top := by
    rw [Ram.register_setRegister_of_ne _ (by decide), Ram.pointer_of_pop hpop]
  have htop : (rest.setRegister .scratch word).top = before.top - 1#16 := by
    rw [Ram.top, hsp]
  rw [← htop] at hresult
  rw [← hsp]
  exact Ram.register_eq_of_read? (Ram.read?_of_replaceTop hreplace hresult.symm)

private theorem toNat_top {ram : Ram} (h : 2 ≤ ram.pointer .sp) :
    ram.top.toNat = ram.pointer .sp - 1 ∧ (ram.top - 1#16).toNat = ram.pointer .sp - 2 := by
  have hone : ram.top.toNat = ram.pointer .sp - 1 :=
    Ram.toNat_sub_ofNat (show 1 ≤ ram.pointer .sp by omega)
  have htwo : (ram.top - BitVec.ofNat 16 1).toNat = ram.top.toNat - 1 :=
    Ram.toNat_sub_ofNat (by omega)
  exact ⟨hone, htwo.trans (by omega)⟩

theorem Operator.sub_two_le_resultAddress (operator : Operator) {ram : Ram}
    (h : 2 ≤ ram.pointer .sp) : ram.pointer .sp - 2 ≤ operator.resultAddress ram := by
  obtain ⟨hone, htwo⟩ := toNat_top h
  cases operator <;> simp only [Operator.resultAddress] <;> omega

/-- The result of an operator is at most one cell below what the stack keeps above. -/
theorem le_resultAddress {operator : Operator} {before after : Ram}
    (h : operator.apply before = some after) {base : Nat} (hbase : 3 ≤ base)
    (hbefore : base ≤ before.pointer .sp) (hafter : base ≤ after.pointer .sp) :
    base ≤ operator.resultAddress before + 1 := by
  obtain ⟨hone, htwo⟩ := toNat_top (show 2 ≤ before.pointer .sp by omega)
  have hresult : (before.top - 1#16).toNat ≠ 0 := by omega
  -- An operator with two operands lowers the stack pointer by one.
  have hbinary : after.register .sp = before.top → base ≤ (before.top - 1#16).toNat + 1 := by
    intro hpointer
    have hlower : after.pointer .sp = before.top.toNat := congrArg BitVec.toNat hpointer
    omega
  unfold Operator.apply at h
  unfold Operator.resultAddress
  cases operator with
  | neg =>
      dsimp only
      omega
  | not =>
      dsimp only
      omega
  | gt => exact hbinary (pointer_of_combineOrdered h hresult)
  | lt => exact hbinary (pointer_of_combineOrdered h hresult)
  | _ => exact hbinary (pointer_of_combine h hresult)

/-- A command with a result cell is an operator. -/
theorem exists_operator {program : Program} {i : Nat} {entry : Entry} {ram : Ram}
    {next : Configuration} {address : Nat} (hentry : program.entries[i]? = some entry)
    (h : program.execute i entry ram = some next)
    (hcomputed : program.computed? ⟨.command i, ram⟩ = some address) :
    ∃ operator : Operator, operator.apply ram = some next.ram ∧
      address = operator.resultAddress ram := by
  obtain ⟨source, command⟩ := entry
  have hpoint : program.entry? (.command i) = some ⟨source, command⟩ := hentry
  cases Program.execute_eq_some_iff.mp h with
  | operate hoperator hresult =>
      refine ⟨_, hresult, ?_⟩
      simpa [Program.computed?, hpoint, hoperator] using hcomputed.symm
  | _ => simp [Program.computed?, hpoint] at hcomputed

end HackVm
