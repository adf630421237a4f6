import HackVm.Proofs.Reference.Machine
import HackVm.Proofs.Simulation.Straight

/-!
# Blocks without jumps

The pieces that blocks are made of do what their names say to the memory of the stack machine:
`exec_pushD`, `exec_popD` and so on are equations between the execution of the code and the
operation on memory, failures included.  The blocks of the commands that do not jump follow by
putting the pieces together.
-/

namespace HackVm

open Emit Hack

variable {meaning : Symbol → Nat} (hregister : ∀ r, meaning (.register r) = r.cell)

/-! ## Single statements -/

theorem compute_intoA (core : Core) (computation : Computation) :
    core.compute intoA computation = (core.operand? computation).map fun x =>
      { core with a := (computation.eval core.d x).toNat } := by
  cases h : core.operand? computation <;> simp [Core.compute, Core.written?, intoA, h]

theorem compute_intoD (core : Core) (computation : Computation) :
    core.compute intoD computation = (core.operand? computation).map fun x =>
      { core with d := computation.eval core.d x } := by
  cases h : core.operand? computation <;> simp [Core.compute, Core.written?, intoD, h]

theorem compute_intoM (core : Core) (computation : Computation) :
    core.compute intoM computation = (core.operand? computation).bind fun x =>
      (core.ram.write? core.a (computation.eval core.d x)).map fun ram => { core with ram } := by
  cases h : core.operand? computation with
  | none => simp [Core.compute, h]
  | some x =>
      cases hwrite : core.ram.write? core.a (computation.eval core.d x) <;>
        simp [Core.compute, Core.written?, intoM, h, hwrite]

theorem compute_intoAM (core : Core) (computation : Computation) :
    core.compute intoAM computation = (core.operand? computation).bind fun x =>
      (core.ram.write? core.a (computation.eval core.d x)).map fun ram =>
        { core with a := (computation.eval core.d x).toNat, ram } := by
  cases h : core.operand? computation with
  | none => simp [Core.compute, h]
  | some x =>
      cases hwrite : core.ram.write? core.a (computation.eval core.d x) <;>
        simp [Core.compute, Core.written?, intoAM, h, hwrite]

@[simp] theorem readsMemory_constants :
    Computation.zero.readsMemory = false ∧ Computation.one.readsMemory = false ∧
      Computation.minusOne.readsMemory = false ∧ Computation.d.readsMemory = false :=
  ⟨rfl, rfl, rfl, rfl⟩

@[simp] theorem readsMemory_of_operand (x : Operand) :
    (Computation.operand x).readsMemory = (x == .m) ∧
      (Computation.succOperand x).readsMemory = (x == .m) ∧
      (Computation.predOperand x).readsMemory = (x == .m) ∧
      (Computation.sum x).readsMemory = (x == .m) ∧
      (Computation.dMinus x).readsMemory = (x == .m) ∧
      (Computation.minusD x).readsMemory = (x == .m) :=
  ⟨rfl, rfl, rfl, rfl, rfl, rfl⟩

@[simp] theorem operand?_of_readsMemory {core : Core} {computation : Computation}
    (h : computation.readsMemory = true) : core.operand? computation = core.ram.read? core.a := by
  rw [Core.operand?, if_pos h]

@[simp] theorem operand?_of_not_readsMemory {core : Core} {computation : Computation}
    (h : computation.readsMemory = false) :
    core.operand? computation = some (BitVec.ofNat 16 core.a) := by
  rw [Core.operand?, h]
  rfl

attribute [simp] compute_intoA compute_intoD compute_intoM compute_intoAM

include hregister

theorem exec_atRegister (r : Register) (rest : List Statement) (core : Core) :
    exec meaning (atRegister r :: rest) core = exec meaning rest { core with a := r.cell } := by
  rw [atRegister, exec_load, hregister]

/-! ## Pieces -/

theorem exec_pushD (core : Core) :
    exec meaning pushD core =
      (core.ram.push core.d).map fun ram => ⟨Register.sp.cell, core.d, ram⟩ := by
  cases hwrite : core.ram.write? (core.ram.register .sp).toNat core.d <;>
    simp [pushD, exec_atRegister hregister, Computation.eval, Ram.push, hwrite]

theorem exec_popD (core : Core) :
    exec meaning popD core =
      core.ram.pop.map fun popped =>
        ⟨core.ram.top.toNat, popped.1, popped.2⟩ := by
  cases hread : (core.ram.setRegister .sp core.ram.top).read? core.ram.top.toNat <;>
    simp [popD, exec_atRegister hregister, Computation.eval, Ram.pop, hread,
      -BitVec.toNat_sub]

theorem exec_atTop (core : Core) :
    exec meaning atTop core = some { core with a := core.ram.top.toNat } := by
  simp [atTop, exec_atRegister hregister, Computation.eval, -BitVec.toNat_sub]

theorem exec_fetch_register (r : Register) (core : Core) :
    exec meaning (fetch (.register r)) core =
      some { core with a := r.cell, d := core.ram.register r } := by
  simp [fetch, hregister, Computation.eval]

theorem exec_store_register (r : Register) (core : Core) :
    exec meaning (store (.register r)) core =
      some { core with a := r.cell, ram := core.ram.setRegister r core.d } := by
  simp [store, hregister, Computation.eval]

/-- Stores `D` in the cell that a register points to. -/
theorem exec_storeThrough (r : Register) (core : Core) :
    exec meaning [atRegister r, assign intoA (.operand .m), assign intoM .d] core =
      (core.ram.write? (core.ram.register r).toNat core.d).map fun ram =>
        { core with a := (core.ram.register r).toNat, ram } := by
  cases hwrite : core.ram.write? (core.ram.register r).toNat core.d <;>
    simp [exec_atRegister hregister, Computation.eval, hwrite]

omit hregister

theorem exec_fetch (symbol : Symbol) (core : Core) :
    exec meaning (fetch symbol) core =
      (core.ram.read? (meaning symbol)).map fun word =>
        { core with a := meaning symbol, d := word } := by
  cases hread : core.ram.read? (meaning symbol) <;>
    simp [fetch, Computation.eval, hread]

theorem exec_store (symbol : Symbol) (core : Core) :
    exec meaning (store symbol) core =
      (core.ram.write? (meaning symbol) core.d).map fun ram =>
        { core with a := meaning symbol, ram } := by
  cases hwrite : core.ram.write? (meaning symbol) core.d <;>
    simp [store, Computation.eval, hwrite]

theorem exec_fetchAddress (symbol : Symbol) (core : Core) :
    exec meaning (fetchAddress symbol) core =
      some { core with a := meaning symbol, d := BitVec.ofNat 16 (meaning symbol) } := by
  simp [fetchAddress, Computation.eval]

/-! ## Arithmetic -/

theorem top_of_pop {ram rest : Ram} {word : Word} (h : ram.pop = some (word, rest)) :
    ram.top - 1#16 = rest.top := by
  obtain ⟨rfl, -⟩ := Ram.pop_eq_some h
  exact (congrArg (· - 1#16) (Ram.register_setRegister_self ram .sp ram.top)).symm

/-- Replacing the cell that the address register points to, when that is the top of the stack. -/
private theorem exec_replaceTop {computation : Computation}
    (hreads : computation.readsMemory = true) {core : Core}
    (htop : core.a = core.ram.top.toNat) :
    (exec meaning [assign intoM computation] core).map Core.ram =
      core.ram.replaceTop fun x => computation.eval core.d x := by
  cases hread : core.ram.read? core.ram.top.toNat with
  | none => simp [hreads, htop, hread, Ram.replaceTop]
  | some x =>
      cases hwrite : core.ram.write? core.ram.top.toNat (computation.eval core.d x) <;>
        simp [hreads, htop, hread, hwrite, Ram.replaceTop]

include hregister

theorem exec_unaryBlock {computation : Computation} (hreads : computation.readsMemory = true)
    (core : Core) :
    (exec meaning (unaryBlock computation) core).map Core.ram =
      core.ram.replaceTop fun x => computation.eval core.d x := by
  rw [unaryBlock, exec_append, exec_atTop hregister]
  exact exec_replaceTop hreads rfl

theorem exec_binaryBlock {computation : Computation} (hreads : computation.readsMemory = true)
    (core : Core) :
    (exec meaning (binaryBlock computation) core).map Core.ram =
      core.ram.combine fun x y => computation.eval y x := by
  rw [binaryBlock, exec_append, exec_popD hregister]
  cases hpop : core.ram.pop with
  | none => simp [Ram.combine, hpop]
  | some popped =>
      obtain ⟨y, rest⟩ := popped
      have hstep : exec meaning [assign intoA (.predOperand .a), assign intoM computation]
          ⟨core.ram.top.toNat, y, rest⟩ =
          exec meaning [assign intoM computation] ⟨rest.top.toNat, y, rest⟩ := by
        rw [exec_assign, compute_intoA, operand?_of_not_readsMemory rfl]
        simp only [Option.map_some, Option.bind_some, Computation.eval]
        rw [BitVec.ofNat_toNat, BitVec.setWidth_eq]
        rw [show core.ram.top - 1 = rest.top from top_of_pop hpop]
      simp only [Option.map_some, Option.bind_some, hstep, Ram.combine, hpop, Option.bind_eq_bind]
      exact exec_replaceTop hreads rfl

/-- The operators without a jump do to the stack what they mean. -/
theorem exec_operate {session : Session} {operator : Operator}
    (hjump : operator ≠ .eq ∧ operator ≠ .gt ∧ operator ≠ .lt) (core : Core) :
    (exec meaning (session.operate operator).2 core).map Core.ram = operator.apply core.ram := by
  cases operator with
  | add =>
      rw [show (session.operate .add).2 = binaryBlock (.sum .m) from rfl,
        exec_binaryBlock hregister rfl]
      simp [Operator.apply, Computation.eval, BitVec.add_comm]
  | sub =>
      rw [show (session.operate .sub).2 = binaryBlock (.minusD .m) from rfl,
        exec_binaryBlock hregister rfl]
      simp [Operator.apply, Computation.eval]
  | and =>
      rw [show (session.operate .and).2 = binaryBlock (.and .m) from rfl,
        exec_binaryBlock hregister rfl]
      simp [Operator.apply, Computation.eval, BitVec.and_comm]
  | or =>
      rw [show (session.operate .or).2 = binaryBlock (.or .m) from rfl,
        exec_binaryBlock hregister rfl]
      simp [Operator.apply, Computation.eval, BitVec.or_comm]
  | neg =>
      rw [show (session.operate .neg).2 = unaryBlock (.negOperand .m) from rfl,
        exec_unaryBlock hregister rfl]
      simp [Operator.apply, Computation.eval]
  | not =>
      rw [show (session.operate .not).2 = unaryBlock (.notOperand .m) from rfl,
        exec_unaryBlock hregister rfl]
      simp [Operator.apply, Computation.eval]
  | eq => exact absurd rfl hjump.1
  | gt => exact absurd rfl hjump.2.1
  | lt => exact absurd rfl hjump.2.2

/-! ## Memory -/

theorem exec_pushBlock_constant (value : Int) (core : Core) :
    (exec meaning (pushBlock (.constant value)) core).map Core.ram =
      core.ram.push (BitVec.ofNat 16 (meaning (.number value))) := by
  simp [pushBlock, exec_append, exec_fetchAddress, exec_pushD hregister, Function.comp_def]

theorem exec_pushBlock_indirect {index : Int}
    (hindex : BitVec.ofNat 16 (meaning (.number index)) = BitVec.ofInt 16 index)
    (base : Register) (core : Core) :
    (exec meaning (pushBlock (.indirect base index)) core).map Core.ram =
      ((Cell.based base index).read? core.ram).bind core.ram.push := by
  rw [pushBlock, List.append_assoc, exec_append, exec_fetchAddress, hindex, Option.bind_some,
    exec_append]
  cases hread : core.ram.read? (BitVec.ofInt 16 index + core.ram.register base).toNat <;>
    simp [exec_atRegister hregister, Computation.eval, exec_pushD hregister, Cell.read?, hread,
      Function.comp_def, -BitVec.toNat_add]

theorem exec_pushBlock_direct (symbol : Symbol) (core : Core) :
    (exec meaning (pushBlock (.direct symbol)) core).map Core.ram =
      (core.ram.read? (meaning symbol)).bind core.ram.push := by
  rw [pushBlock, exec_append, exec_fetch]
  cases hread : core.ram.read? (meaning symbol) <;>
    simp [exec_pushD hregister, Function.comp_def]

theorem exec_popBlock_indirect {index : Int}
    (hindex : BitVec.ofNat 16 (meaning (.number index)) = BitVec.ofInt 16 index)
    (base : Register) {statements : List Statement}
    (hblock : popBlock? (.indirect base index) = some statements) (core : Core) :
    (exec meaning statements core).map Core.ram = (Cell.based base index).pop core.ram := by
  obtain rfl := Option.some.inj hblock
  have hkept : exec meaning (fetchAddress (.number index) ++
      [atRegister base, assign intoD (.sum .m)] ++ store (.register .scratch)) core =
      some ⟨Register.scratch.cell, BitVec.ofInt 16 index + core.ram.register base,
        core.ram.setRegister .scratch (BitVec.ofInt 16 index + core.ram.register base)⟩ := by
    simp [exec_append, exec_fetchAddress, hindex, exec_atRegister hregister,
      Computation.eval, exec_store_register hregister]
  rw [exec_append, exec_append, hkept, Option.bind_some, exec_popD hregister, Cell.pop]
  cases hpop : (core.ram.setRegister .scratch
      (BitVec.ofInt 16 index + core.ram.register base)).pop with
  | none => simp
  | some popped =>
      simp [exec_storeThrough hregister, Function.comp_def, -exec_assign]

theorem exec_popBlock_direct (symbol : Symbol) {statements : List Statement}
    (hblock : popBlock? (.direct symbol) = some statements) (core : Core) :
    (exec meaning statements core).map Core.ram =
      (Cell.fixed (meaning symbol)).pop core.ram := by
  obtain rfl := Option.some.inj hblock
  rw [exec_append, exec_popD hregister]
  cases hpop : core.ram.pop with
  | none => simp [Cell.pop, hpop]
  | some popped => simp [Cell.pop, hpop, exec_store, Function.comp_def]

/-! ## Functions -/

theorem exec_pushZero (core : Core) :
    exec meaning pushZero core =
      (core.ram.push 0#16).map fun ram => ⟨Register.sp.cell, core.d, ram⟩ := by
  cases hwrite : core.ram.write? (core.ram.register .sp).toNat 0#16 <;>
    simp [pushZero, exec_atRegister hregister, Computation.eval, Ram.push, hwrite]

theorem exec_functionBlock (name : String) (locals : Int) (core : Core) :
    (exec meaning (functionBlock name locals) core).map Core.ram =
      core.ram.pushZeros locals.toNat := by
  rw [functionBlock, exec_declare]
  generalize locals.toNat = count
  induction count generalizing core with
  | zero => simp [Ram.pushZeros]
  | succ count ih =>
      rw [List.replicate_succ, List.flatten_cons, exec_append, exec_pushZero hregister]
      cases hpush : core.ram.push 0#16 with
      | none => simp [Ram.pushZeros, hpush]
      | some pushed => simp [Ram.pushZeros, hpush, ih]

/-! ## Calls -/

/-- The code of a call that makes the frame. -/
def frameBlock (back : Symbol) : List Statement :=
  fetchAddress back ++ pushD ++
    savedRegisters.flatMap (fun register => fetch (.register register) ++ pushD)

/-- The code of a call that moves on to the arguments and local variables. -/
def moveBlock (arguments : Int) : List Statement :=
  fetch (.register .sp) ++ [atNumber (frameSize + arguments), assign intoD (.dMinus .a)] ++
    store (.register .arg) ++ fetch (.register .sp) ++ store (.register .lcl)

omit hregister in
theorem callBlock_eq (function : String) (arguments : Int) (back : Symbol) :
    callBlock function arguments back =
      (frameBlock back ++ moveBlock arguments) ++ (jumpTo (.name function) ++ [.declare back]) := by
  simp only [callBlock, frameBlock, moveBlock, List.append_assoc]

private theorem exec_moveBlock {arguments : Int}
    (hsize : BitVec.ofNat 16 (meaning (.number (frameSize + arguments))) =
      BitVec.ofInt 16 (5 + arguments)) (core : Core) :
    exec meaning (moveBlock arguments) core =
      some ⟨Register.lcl.cell, core.ram.register .sp,
        (core.ram.setRegister .arg
          (core.ram.register .sp - BitVec.ofInt 16 (5 + arguments))).setRegister
          .lcl (core.ram.register .sp)⟩ := by
  simp [moveBlock, exec_append, exec_fetch_register hregister, exec_store_register hregister,
    atNumber, Computation.eval, hsize, Ram.register_setRegister_of_ne]

/-- Pushes the word that a register holds. -/
private theorem exec_save (r : Register) {core : Core} {pushed : Ram}
    (hpush : core.ram.push (core.ram.register r) = some pushed) :
    exec meaning (fetch (.register r) ++ pushD) core =
      some ⟨Register.sp.cell, core.ram.register r, pushed⟩ := by
  refine exec_trans (exec_fetch_register hregister r core) ?_
  rw [exec_pushD hregister, hpush, Option.map_some]

private theorem exec_frameBlock {back : Symbol} {core : Core}
    {first second third fourth fifth : Ram}
    (hfirst : core.ram.push (BitVec.ofNat 16 (meaning back)) = some first)
    (hsecond : first.push (first.register .lcl) = some second)
    (hthird : second.push (second.register .arg) = some third)
    (hfourth : third.push (third.register .this) = some fourth)
    (hfifth : fourth.push (fourth.register .that) = some fifth) :
    exec meaning (frameBlock back) core =
      some ⟨Register.sp.cell, fourth.register .that, fifth⟩ := by
  have hback : exec meaning (fetchAddress back ++ pushD) core =
      some ⟨Register.sp.cell, BitVec.ofNat 16 (meaning back), first⟩ := by
    refine exec_trans (exec_fetchAddress back core) ?_
    rw [exec_pushD hregister, hfirst, Option.map_some]
  refine exec_trans hback ?_
  refine exec_trans (exec_save hregister .lcl hsecond) ?_
  refine exec_trans (exec_save hregister .arg hthird) ?_
  refine exec_trans (exec_save hregister .this hfourth) ?_
  exact exec_trans (exec_save hregister .that hfifth) (exec_nil meaning _)

/-- The code of a call before its jump enters the function. -/
theorem exec_enter {arguments : Int} {back : Symbol}
    (hsize : BitVec.ofNat 16 (meaning (.number (frameSize + arguments))) =
      BitVec.ofInt 16 (5 + arguments)) {core : Core} {entered : Ram}
    (henter : core.ram.enter (BitVec.ofNat 16 (meaning back)) arguments = some entered) :
    ∃ last, exec meaning (frameBlock back ++ moveBlock arguments) core = some last ∧
      last.ram = entered := by
  obtain ⟨first, second, third, fourth, fifth, hfirst, hsecond, hthird, hfourth, hfifth, rfl⟩ :=
    Ram.enter_eq_some henter
  have hframe := exec_frameBlock hregister hfirst hsecond hthird hfourth hfifth
  exact ⟨_, exec_trans hframe (exec_moveBlock hregister hsize _), rfl⟩

/-! ## Returns -/

/-- The code of a return that reads the frame's end and the return address. -/
def keepBlock : List Statement :=
  fetch (.register .lcl) ++ store (.register .frame) ++
    [atNumber frameSize, assign intoA (.dMinus .a), assign intoD (.operand .m)] ++
    store (.register .scratch)

/-- The code of a return that hands over the result. -/
def resultBlock : List Statement :=
  popD ++ [atRegister .arg, assign intoA (.operand .m), assign intoM .d] ++
    [atRegister .arg, assign intoD (.succOperand .m)] ++ store (.register .sp)

/-- The code of a return that restores the registers and loads the return address. -/
def restoreBlock : List Statement :=
  Emit.restore 1 .that ++ Emit.restore 2 .this ++ Emit.restore 3 .arg ++ Emit.restore 4 .lcl ++
    [atRegister .scratch, assign intoA (.operand .m)]

omit hregister in
theorem returnBlock_eq :
    returnBlock = (keepBlock ++ resultBlock ++ restoreBlock) ++ [jumpIf .zero .always] := by
  simp only [returnBlock, keepBlock, resultBlock, restoreBlock, List.append_assoc, List.cons_append,
    List.nil_append]

private theorem exec_restore {distance : Nat}
    (hdistance : meaning (.number distance) = distance) (r : Register) (core : Core) :
    exec meaning (Emit.restore distance r) core =
      (core.ram.restore distance r).map fun ram => ⟨r.cell, ram.register r, ram⟩ := by
  cases hread : core.ram.read? (core.ram.register .frame - BitVec.ofNat 16 distance).toNat <;>
    simp [Emit.restore, exec_append, exec_fetch_register hregister, exec_store_register hregister,
      atNumber, Computation.eval, hdistance, Ram.restore, hread, -BitVec.toNat_sub]

private theorem exec_restore_of {distance : Nat}
    (hdistance : meaning (.number distance) = distance) {r : Register} {before after : Ram}
    (hrestore : before.restore distance r = some after) (a : Nat) (d : Word) :
    exec meaning (Emit.restore distance r) ⟨a, d, before⟩ =
      some ⟨r.cell, after.register r, after⟩ := by
  rw [exec_restore hregister hdistance, hrestore, Option.map_some]

private theorem exec_keepBlock (hfive : meaning (.number frameSize) = 5) {core : Core}
    {saved : Word}
    (hsaved : (core.ram.setRegister .frame (core.ram.register .lcl)).read?
      (core.ram.register .lcl - 5#16).toNat = some saved) :
    exec meaning keepBlock core = some ⟨Register.scratch.cell, saved,
      (core.ram.setRegister .frame (core.ram.register .lcl)).setRegister .scratch saved⟩ := by
  have hframe := exec_trans (exec_fetch_register hregister .lcl core)
    (exec_store_register hregister .frame _)
  have hback : exec meaning [atNumber frameSize, assign intoA (.dMinus .a),
      assign intoD (.operand .m)] ⟨Register.frame.cell, core.ram.register .lcl,
        core.ram.setRegister .frame (core.ram.register .lcl)⟩ =
      some ⟨(core.ram.register .lcl - 5#16).toNat, saved,
        core.ram.setRegister .frame (core.ram.register .lcl)⟩ := by
    simp [atNumber, Computation.eval, hfive, hsaved, -BitVec.toNat_sub]
  exact exec_trans (exec_trans hframe hback) (exec_store_register hregister .scratch _)

private theorem exec_resultBlock {core : Core} {result : Word} {popped stored : Ram}
    (hpop : core.ram.pop = some (result, popped))
    (hstored : popped.write? (popped.register .arg).toNat result = some stored) :
    exec meaning resultBlock core = some ⟨Register.sp.cell, stored.register .arg + 1#16,
      stored.setRegister .sp (stored.register .arg + 1#16)⟩ := by
  have htaken : exec meaning popD core = some ⟨core.ram.top.toNat, result, popped⟩ := by
    rw [exec_popD hregister, hpop, Option.map_some]
  have hput : exec meaning [atRegister .arg, assign intoA (.operand .m), assign intoM .d]
      ⟨core.ram.top.toNat, result, popped⟩ =
      some ⟨(popped.register .arg).toNat, result, stored⟩ := by
    rw [exec_storeThrough hregister, hstored, Option.map_some]
  have hnext : ∀ a d,
      exec meaning [atRegister .arg, assign intoD (.succOperand .m)] ⟨a, d, stored⟩ =
        some ⟨Register.arg.cell, stored.register .arg + 1#16, stored⟩ := by
    intro a d
    simp [exec_atRegister hregister, Computation.eval]
  exact exec_trans (exec_trans (exec_trans htaken hput) (hnext _ _))
    (exec_store_register hregister .sp _)

/-- The code of a return before its jump leaves the function and loads the return address. -/
theorem exec_leave
    (hnumber : ∀ distance : Nat, distance ≤ 5 → meaning (.number distance) = distance)
    {core : Core} {back : Word} {left : Ram} (hleave : core.ram.leave = some (back, left)) :
    ∃ last, exec meaning (keepBlock ++ resultBlock ++ restoreBlock) core = some last ∧
      last.a = back.toNat ∧ last.ram = left := by
  obtain ⟨saved, framed, popped, stored, result, first, second, third, rfl, hsaved, hpop, hstored,
    hfirst, hsecond, hthird, hlast, rfl⟩ := Ram.leave_eq_some hleave
  have hfive : meaning (.number frameSize) = 5 := by
    rw [show frameSize = ((5 : Nat) : Int) by decide]
    exact hnumber 5 (Nat.le_refl 5)
  have hjump : ∀ a d, exec meaning [atRegister .scratch, assign intoA (.operand .m)] ⟨a, d, left⟩ =
      some ⟨(left.register .scratch).toNat, d, left⟩ := by
    intro a d
    simp [exec_atRegister hregister, Computation.eval]
  have hrestored : exec meaning restoreBlock ⟨Register.sp.cell, stored.register .arg + 1#16,
      stored.setRegister .sp (stored.register .arg + 1#16)⟩ =
      some ⟨(left.register .scratch).toNat, left.register .lcl, left⟩ := by
    have hthat := exec_restore_of hregister (hnumber 1 (by decide)) hfirst
    have hthis := exec_restore_of hregister (hnumber 2 (by decide)) hsecond
    have harg := exec_restore_of hregister (hnumber 3 (by decide)) hthird
    have hlcl := exec_restore_of hregister (hnumber 4 (by decide)) hlast
    exact exec_trans (exec_trans (exec_trans (exec_trans (hthat _ _) (hthis _ _)) (harg _ _))
      (hlcl _ _)) (hjump _ _)
  exact ⟨_, exec_trans (exec_trans (exec_keepBlock hregister hfive hsaved)
    (exec_resultBlock hregister hpop hstored)) hrestored, rfl, rfl⟩

end HackVm
