import HackVm.Proofs.Reference.Ram

/-!
# What the operations on memory leave alone

An operation of the stack machine touches its registers and a few cells of the stack.  For every
operation this file says where the stack pointer is afterwards, what the touched cells hold, and
that all other cells are as before.  The stack is taken to lie above the registers, as far as the
operation needs it.

The main results are about calls: `Entered` says what a function finds in memory, and `Left` what
its caller finds after the return, provided that the frame is still in place.
-/

namespace HackVm.Ram

open Emit Hack

/-- The address that a register holds. -/
def pointer (ram : Ram) (r : Register) : Nat :=
  (ram.register r).toNat

theorem register_eq_of_read? {before after : Ram} {r : Register}
    (h : after.read? r.cell = before.read? r.cell) : after.register r = before.register r := by
  rw [read?_cell, read?_cell] at h
  exact Option.some.inj h

theorem pointer_setRegister_of_ne (ram : Ram) {r other : Register} (hne : other ≠ r) (word : Word) :
    (ram.setRegister r word).pointer other = ram.pointer other := by
  rw [pointer, register_setRegister_of_ne ram hne]
  rfl

/-- An address above the registers that code uses by name. -/
theorem ne_cell_of_le {address : Nat} (h : 16 ≤ address) (r : Register) : address ≠ r.cell := by
  cases r <;> simp only [Register.cell] <;> omega

theorem toNat_add_one {word : Word} (h : word.toNat < memorySize) :
    (word + 1#16).toNat = word.toNat + 1 := by
  unfold memorySize at h
  rw [BitVec.toNat_add, show (1#16).toNat = 1 from rfl]
  omega

theorem toNat_sub_ofNat {word : Word} {n : Nat} (h : n ≤ word.toNat) :
    (word - BitVec.ofNat 16 n).toNat = word.toNat - n := by
  have hword := word.isLt
  have hn : (BitVec.ofNat 16 n).toNat = n := by
    rw [BitVec.toNat_ofNat]
    omega
  rw [BitVec.toNat_sub_of_le (by rw [BitVec.le_def, hn]; exact h), hn]

/-! ## Pushes -/

/-- Puts words on the stack, one after the other. -/
def pushAll (ram : Ram) : List Word → Option Ram
  | [] => some ram
  | word :: rest => do
    let pushed ← ram.push word
    pushed.pushAll rest

/-- The words are on top of the stack of a memory, and nothing else was changed. -/
structure Pushed (before : Ram) (words : List Word) (after : Ram) : Prop where
  pointer : after.pointer .sp = before.pointer .sp + words.length
  word : ∀ j word, words[j]? = some word → after.read? (before.pointer .sp + j) = some word
  other : ∀ address, address ≠ 0 →
    (address < before.pointer .sp ∨ before.pointer .sp + words.length ≤ address) →
    after.read? address = before.read? address

theorem pushed_of_push {before after : Ram} {word : Word} (hpositive : 0 < before.pointer .sp)
    (h : before.push word = some after) : Pushed before [word] after := by
  obtain ⟨stored, hstored, hafter⟩ := Option.bind_eq_some_iff.mp h
  obtain rfl := Option.some.inj hafter
  have hroom : before.pointer .sp < memorySize := lt_of_write? hstored
  have hsp : stored.register .sp = before.register .sp :=
    register_eq_of_read? (read?_of_write?_of_ne hstored (Nat.ne_of_lt hpositive))
  have hother : ∀ address, address ≠ 0 →
      (stored.setRegister .sp (stored.register .sp + 1#16)).read? address = stored.read? address :=
    fun address hne => read?_setRegister_of_ne _ hne _
  constructor
  · rw [pointer, register_setRegister_self, hsp, toNat_add_one hroom]
    rfl
  · intro j found hfound
    obtain ⟨rfl, rfl⟩ : j = 0 ∧ word = found := by
      cases j with
      | zero => exact ⟨rfl, Option.some.inj hfound⟩
      | succ j => exact absurd hfound (by simp)
    rw [hother _ (by omega)]
    exact read?_of_write? hstored
  · intro address hzero houtside
    rw [hother address hzero]
    refine read?_of_write?_of_ne hstored ?_
    rw [List.length_singleton] at houtside
    exact fun hsame => absurd (show address = before.pointer .sp from hsame) (by omega)

theorem pushed_of_pushAll {before after : Ram} {words : List Word}
    (hpositive : 0 < before.pointer .sp) (h : before.pushAll words = some after) :
    Pushed before words after := by
  induction words generalizing before with
  | nil =>
      obtain rfl := Option.some.inj h
      exact ⟨rfl, fun j word hword => absurd hword (by simp), fun _ _ _ => rfl⟩
  | cons word rest ih =>
      obtain ⟨middle, hpush, hrest⟩ := Option.bind_eq_some_iff.mp h
      have hfirst := pushed_of_push hpositive hpush
      have hmiddle : middle.pointer .sp = before.pointer .sp + 1 := hfirst.pointer
      have hlater := ih (by omega) hrest
      constructor
      · rw [hlater.pointer, hmiddle, List.length_cons]
        omega
      · intro j found hfound
        cases j with
        | zero =>
            rw [hlater.other _ (by omega) (by omega)]
            exact hfirst.word 0 found hfound
        | succ j =>
            rw [show before.pointer .sp + (j + 1) = middle.pointer .sp + j by omega]
            exact hlater.word j found hfound
      · intro address hzero houtside
        rw [List.length_cons] at houtside
        rw [hlater.other address hzero (by omega)]
        exact hfirst.other address hzero (by simp only [List.length_singleton]; omega)

theorem pushZeros_eq_pushAll (ram : Ram) (count : Nat) :
    ram.pushZeros count = ram.pushAll (List.replicate count 0#16) := by
  induction count generalizing ram with
  | zero => rfl
  | succ count ih =>
      rw [pushZeros, List.replicate_succ, pushAll]
      exact congrArg _ (funext ih)

theorem Pushed.register {before after : Ram} {words : List Word} (h : Pushed before words after)
    {r : Register} (hr : r ≠ .sp) (hbelow : r.cell < before.pointer .sp) :
    after.register r = before.register r := by
  refine register_eq_of_read? (h.other r.cell ?_ (Or.inl hbelow))
  intro hzero
  exact hr (Register.cell_injective hzero)

/-! ## Operators -/

theorem pointer_of_pop {before after : Ram} {word : Word} (h : before.pop = some (word, after)) :
    after.register .sp = before.top := by
  obtain ⟨rfl, -⟩ := pop_eq_some h
  exact register_setRegister_self ..

theorem read?_of_pop {before after : Ram} {word : Word} (h : before.pop = some (word, after))
    {address : Nat} (hzero : address ≠ 0) : after.read? address = before.read? address := by
  obtain ⟨rfl, -⟩ := pop_eq_some h
  exact read?_setRegister_of_ne _ hzero _

theorem read?_of_replaceTop {before after : Ram} {f : Word → Word}
    (h : before.replaceTop f = some after) {address : Nat} (htop : address ≠ before.top.toNat) :
    after.read? address = before.read? address := by
  obtain ⟨word, -, hwrite⟩ := Option.bind_eq_some_iff.mp h
  exact read?_of_write?_of_ne hwrite htop

/-! ## Calls -/

/-- What a function finds in memory: its frame on the stack of the caller, with the return address
and the registers of the caller, and its own base and arguments. -/
structure Entered (before : Ram) (back : Word) (arguments : Nat) (after : Ram) : Prop where
  base : after.pointer .lcl = before.pointer .sp + 5
  argument : after.pointer .arg = before.pointer .sp - arguments
  saved : ∀ j word, [back, before.register .lcl, before.register .arg, before.register .this,
    before.register .that][j]? = some word → after.read? (before.pointer .sp + j) = some word
  other : ∀ address, 3 ≤ address →
    (address < before.pointer .sp ∨ before.pointer .sp + 5 ≤ address) →
    after.read? address = before.read? address

/-- The five pushes of a call push what the registers held before the first of them. -/
private theorem enter_eq_pushAll {before after : Ram} {back : Word} {arguments : Int}
    (hstack : 16 ≤ before.pointer .sp) (h : before.enter back arguments = some after) :
    ∃ pushed, before.pushAll [back, before.register .lcl, before.register .arg,
        before.register .this, before.register .that] = some pushed ∧
      after = (pushed.setRegister .arg
        (pushed.register .sp - BitVec.ofInt 16 (5 + arguments))).setRegister .lcl
          (pushed.register .sp) := by
  obtain ⟨first, second, third, fourth, fifth, hfirst, hsecond, hthird, hfourth, hfifth, hafter⟩ :=
    enter_eq_some h
  refine ⟨fifth, ?_, hafter⟩
  have hkept : ∀ {low high : Ram} {words : List Word}, Pushed low words high →
      16 ≤ low.pointer .sp → 16 ≤ high.pointer .sp ∧
        (high.register .lcl = low.register .lcl ∧ high.register .arg = low.register .arg ∧
          high.register .this = low.register .this ∧ high.register .that = low.register .that) := by
    intro low high words hpushed hlow
    have hregister : ∀ r : Register, r ≠ .sp → high.register r = low.register r :=
      fun r hr => hpushed.register hr (by cases r <;> simp only [Register.cell] <;> omega)
    refine ⟨?_, hregister _ (by decide), hregister _ (by decide), hregister _ (by decide),
      hregister _ (by decide)⟩
    rw [hpushed.pointer]
    omega
  obtain ⟨hone, hlcl₁, harg₁, hthis₁, hthat₁⟩ :=
    hkept (pushed_of_push (by omega) hfirst) hstack
  obtain ⟨htwo, -, harg₂, hthis₂, hthat₂⟩ := hkept (pushed_of_push (by omega) hsecond) hone
  obtain ⟨hthree, -, -, hthis₃, hthat₃⟩ := hkept (pushed_of_push (by omega) hthird) htwo
  obtain ⟨-, -, -, -, hthat₄⟩ := hkept (pushed_of_push (by omega) hfourth) hthree
  rw [hlcl₁] at hsecond
  rw [harg₂, harg₁] at hthird
  rw [hthis₃, hthis₂, hthis₁] at hfourth
  rw [hthat₄, hthat₃, hthat₂, hthat₁] at hfifth
  simp only [pushAll, hfirst, hsecond, hthird, hfourth, hfifth, Option.bind_eq_bind,
    Option.bind_some]

theorem entered_of_enter {before after : Ram} {back : Word} {arguments : Nat}
    (hstack : 16 ≤ before.pointer .sp) (harguments : arguments ≤ before.pointer .sp)
    (h : before.enter back arguments = some after) : Entered before back arguments after := by
  obtain ⟨pushed, hpush, rfl⟩ := enter_eq_pushAll hstack h
  have hpushed := pushed_of_pushAll (by omega) hpush
  have hpointer : (pushed.register .sp).toNat = before.pointer .sp + 5 := hpushed.pointer
  have hread : ∀ address, 3 ≤ address → ∀ x y,
      ((pushed.setRegister .arg x).setRegister .lcl y).read? address = pushed.read? address := by
    intro address hlow x y
    rw [read?_setRegister_of_ne _ (by simp only [Register.cell]; omega),
      read?_setRegister_of_ne _ (by simp only [Register.cell]; omega)]
  constructor
  · rw [pointer, register_setRegister_self, hpointer]
  · have hsize : BitVec.ofInt 16 (5 + (arguments : Int)) = BitVec.ofNat 16 (5 + arguments) :=
      BitVec.ofInt_natCast 16 (5 + arguments)
    rw [pointer_setRegister_of_ne _ (by decide), pointer, register_setRegister_self, hsize,
      toNat_sub_ofNat (by omega), hpointer]
    omega
  · intro j word hword
    rw [hread _ (by omega)]
    exact hpushed.word j word hword
  · intro address hlow houtside
    rw [hread address hlow]
    exact hpushed.other address (by omega) houtside

/-! ## Returns -/

/-- What the caller finds in memory after a return: the result in place of the first argument, and
its registers as the frame held them. -/
structure Left (before : Ram) (back : Word) (after : Ram) : Prop where
  back : before.read? (before.pointer .lcl - 5) = some back
  lcl : before.read? (before.pointer .lcl - 4) = some (after.register .lcl)
  arg : before.read? (before.pointer .lcl - 3) = some (after.register .arg)
  this : before.read? (before.pointer .lcl - 2) = some (after.register .this)
  that : before.read? (before.pointer .lcl - 1) = some (after.register .that)
  stack : after.pointer .sp = before.pointer .arg + 1
  result : after.read? (before.pointer .arg) = before.read? before.top.toNat
  other : ∀ address, 5 ≤ address → address ≠ 13 → address ≠ 14 → address ≠ before.pointer .arg →
    after.read? address = before.read? address

private theorem restore_eq_some {before after : Ram} {distance : Nat} {r : Register}
    (h : before.restore distance r = some after) (hframe : distance ≤ before.pointer .frame) :
    before.read? (before.pointer .frame - distance) = some (after.register r) ∧
      (∀ other, other ≠ r → after.register other = before.register other) ∧
      ∀ address, address ≠ r.cell → after.read? address = before.read? address := by
  obtain ⟨word, hread, hafter⟩ := Option.bind_eq_some_iff.mp h
  obtain rfl := Option.some.inj hafter
  rw [toNat_sub_ofNat hframe] at hread
  refine ⟨?_, fun other hne => register_setRegister_of_ne _ hne _,
    fun address hne => read?_setRegister_of_ne _ hne _⟩
  rw [register_setRegister_self]
  exact hread

/-- The registers of the caller come back from the frame, and nothing else is changed. -/
private theorem read?_of_restores {start first second third last : Ram} {base : Nat}
    (hframe : start.pointer .frame = base) (hbase : 9 ≤ base)
    (hfirst : start.restore 1 .that = some first) (hsecond : first.restore 2 .this = some second)
    (hthird : second.restore 3 .arg = some third) (hlast : third.restore 4 .lcl = some last) :
    start.read? (base - 1) = some (last.register .that) ∧
      start.read? (base - 2) = some (last.register .this) ∧
      start.read? (base - 3) = some (last.register .arg) ∧
      start.read? (base - 4) = some (last.register .lcl) ∧
      ∀ address, address = Register.sp.cell ∨ 5 ≤ address →
        last.read? address = start.read? address := by
  -- The frame is addressed from a register that nothing in between changes.
  obtain ⟨hthat, hregister₁, hread₁⟩ := restore_eq_some hfirst (by omega)
  have hframe₁ : first.pointer .frame = base :=
    (congrArg BitVec.toNat (hregister₁ .frame (by decide))).trans hframe
  obtain ⟨hthis, hregister₂, hread₂⟩ := restore_eq_some hsecond (by omega)
  have hframe₂ : second.pointer .frame = base :=
    (congrArg BitVec.toNat (hregister₂ .frame (by decide))).trans hframe₁
  obtain ⟨hargument, hregister₃, hread₃⟩ := restore_eq_some hthird (by omega)
  have hframe₃ : third.pointer .frame = base :=
    (congrArg BitVec.toNat (hregister₃ .frame (by decide))).trans hframe₂
  obtain ⟨hlcl, hregister₄, hread₄⟩ := restore_eq_some hlast (by omega)
  rw [hframe] at hthat
  rw [hframe₁] at hthis
  rw [hframe₂] at hargument
  rw [hframe₃] at hlcl
  -- The cells of the frame are not among those that are written to.
  have hkept : ∀ address, address = Register.sp.cell ∨ 5 ≤ address →
      first.read? address = start.read? address ∧ second.read? address = start.read? address ∧
      third.read? address = start.read? address ∧ last.read? address = start.read? address := by
    intro address haddress
    simp only [Register.cell] at haddress
    have hone := hread₁ address (by simp only [Register.cell]; omega)
    have htwo := (hread₂ address (by simp only [Register.cell]; omega)).trans hone
    have hthree := (hread₃ address (by simp only [Register.cell]; omega)).trans htwo
    have hfour := (hread₄ address (by simp only [Register.cell]; omega)).trans hthree
    exact ⟨hone, htwo, hthree, hfour⟩
  refine ⟨?_, ?_, ?_, ?_, fun address haddress => (hkept address haddress).2.2.2⟩
  · rw [hregister₄ .that (by decide), hregister₃ .that (by decide), hregister₂ .that (by decide)]
    exact hthat
  · rw [hregister₄ .this (by decide), hregister₃ .this (by decide), ← (hkept _ (by omega)).1]
    exact hthis
  · rw [hregister₄ .arg (by decide), ← (hkept _ (by omega)).2.1]
    exact hargument
  · rw [← (hkept _ (by omega)).2.2.1]
    exact hlcl

/-- The part of a return before the registers are restored. -/
private theorem handOver {before popped stored : Ram} {saved result : Word}
    (harg : 16 ≤ before.pointer .arg) (hstack : 16 < before.pointer .sp)
    (hpop : ((before.setRegister .frame (before.register .lcl)).setRegister .scratch saved).pop =
      some (result, popped))
    (hstored : popped.write? (popped.register .arg).toNat result = some stored) :
    before.pointer .arg < memorySize ∧ stored.register .arg = before.register .arg ∧
      stored.register .frame = before.register .lcl ∧ stored.register .scratch = saved ∧
      stored.read? (before.pointer .arg) = before.read? before.top.toNat ∧
      ∀ address, 5 ≤ address → address ≠ 13 → address ≠ 14 → address ≠ before.pointer .arg →
        stored.read? address = before.read? address := by
  obtain ⟨hpopped, hresult⟩ := pop_eq_some hpop
  have htop : ((before.setRegister .frame (before.register .lcl)).setRegister .scratch saved).top =
      before.top := by
    rw [top, register_setRegister_of_ne _ (by decide), register_setRegister_of_ne _ (by decide)]
    rfl
  have htopAddress : 16 ≤ before.top.toNat := by
    have hone : (before.register .sp - BitVec.ofNat 16 1).toNat = before.pointer .sp - 1 :=
      toNat_sub_ofNat (show 1 ≤ before.pointer .sp by omega)
    rw [top, hone]
    omega
  have hargument : popped.register .arg = before.register .arg := by
    rw [hpopped, register_setRegister_of_ne _ (by decide), register_setRegister_of_ne _ (by decide),
      register_setRegister_of_ne _ (by decide)]
  rw [hargument] at hstored
  have hread : ∀ address, 5 ≤ address → address ≠ 13 → address ≠ 14 →
      popped.read? address = before.read? address := by
    intro address hlow hscratch hframe
    rw [hpopped, read?_setRegister_of_ne _ (by simp only [Register.cell]; omega),
      read?_setRegister_of_ne _ hscratch, read?_setRegister_of_ne _ hframe]
  have hregister : ∀ r : Register, stored.register r = popped.register r :=
    fun r => register_eq_of_read? (read?_of_write?_of_ne hstored (ne_cell_of_le harg r).symm)
  refine ⟨lt_of_write? hstored, (hregister .arg).trans hargument, ?_, ?_, ?_, ?_⟩
  · rw [hregister, hpopped, register_setRegister_of_ne _ (by decide),
      register_setRegister_of_ne _ (by decide), register_setRegister_self]
  · rw [hregister, hpopped, register_setRegister_of_ne _ (by decide), register_setRegister_self]
  · rw [htop] at hresult
    rw [show before.pointer .arg = (before.register .arg).toNat from rfl, read?_of_write? hstored,
      ← hresult]
    exact hread _ (by omega) (by omega) (by omega)
  · intro address hlow hscratch hframe hne
    rw [read?_of_write?_of_ne hstored hne]
    exact hread address hlow hscratch hframe

theorem left_of_leave {before after : Ram} {back : Word} (hbase : 21 ≤ before.pointer .lcl)
    (harg : 16 ≤ before.pointer .arg) (hframe : before.pointer .arg + 5 ≤ before.pointer .lcl)
    (hstack : 16 < before.pointer .sp) (h : before.leave = some (back, after)) :
    Left before back after := by
  obtain ⟨saved, framed, popped, stored, result, first, second, third, rfl, hsaved, hpop, hstored,
    hfirst, hsecond, hthird, hlast, rfl⟩ := leave_eq_some h
  obtain ⟨hroom, hstoredArg, hstoredFrame, hstoredScratch, hresult, hother⟩ :=
    handOver harg hstack hpop hstored
  have hlowered : ∀ address, 5 ≤ address → (stored.setRegister .sp
      (stored.register .arg + 1#16)).read? address = stored.read? address :=
    fun address hlow => read?_setRegister_of_ne _ (by simp only [Register.cell]; omega) _
  have hpointer : (stored.setRegister .sp (stored.register .arg + 1#16)).pointer .frame =
      before.pointer .lcl := by
    rw [pointer_setRegister_of_ne _ (by decide)]
    exact congrArg BitVec.toNat hstoredFrame
  obtain ⟨hthat, hthis, hargument, hlcl, hkept⟩ :=
    read?_of_restores hpointer (by omega) hfirst hsecond hthird hlast
  -- So far no cell of the frame was written to.
  have hframed : ∀ distance, 1 ≤ distance → distance ≤ 4 →
      (stored.setRegister .sp (stored.register .arg + 1#16)).read?
          (before.pointer .lcl - distance) =
        before.read? (before.pointer .lcl - distance) := by
    intro distance hone hfour
    rw [hlowered _ (by omega)]
    exact hother _ (by omega) (by omega) (by omega) (by omega)
  have hafter : ∀ address, 5 ≤ address → after.read? address = stored.read? address :=
    fun address hlow => (hkept address (.inr hlow)).trans (hlowered address hlow)
  constructor
  · have hscratch : after.register .scratch = saved :=
      (register_eq_of_read? (hafter _ (by decide))).trans hstoredScratch
    have hfive : (before.register .lcl - BitVec.ofNat 16 5).toNat = before.pointer .lcl - 5 :=
      toNat_sub_ofNat (show 5 ≤ before.pointer .lcl by omega)
    rw [hfive, read?_setRegister_of_ne _ (ne_cell_of_le (by omega) .frame)] at hsaved
    rw [hscratch]
    exact hsaved
  · exact (hframed 4 (by omega) (by omega)).symm.trans hlcl
  · exact (hframed 3 (by omega) (by omega)).symm.trans hargument
  · exact (hframed 2 (by omega) (by omega)).symm.trans hthis
  · exact (hframed 1 (by omega) (by omega)).symm.trans hthat
  · have hsp : after.register .sp = before.register .arg + 1#16 := by
      rw [register_eq_of_read? (hkept _ (.inl rfl)), register_setRegister_self, hstoredArg]
    rw [pointer, hsp, toNat_add_one hroom]
    rfl
  · rw [hafter _ (by omega)]
    exact hresult
  · intro address hlow hscratch hframe hne
    rw [hafter address hlow]
    exact hother address hlow hscratch hframe hne

end HackVm.Ram
