import HackVm.Proofs.Reference.Stores
import HackVm.Proofs.Simulation.Operators

/-!
# A push and a pop of one cell

To push a cell and to pop into it again changes nothing, wherever the cell lies.  `segmentAddress?`
says where that is: a fixed cell, or one counted from a base register, modulo the size of a word.

The obstacle is that the cell can be one that the code itself works with, and that a pop through a
base register keeps the address in the scratch register while the stack pointer moves.

```text
the cell is           in between                        at the end
the stack pointer     counted up and down again         written with the word read before
the scratch register  overwritten with its own address  written with the word read before
the top of the stack  overwritten with its own word     written with the word read before
a base register       not touched                       written with the word read before
```

The word was read before anything else happened, and it is written last.  So the cell is as before
in all cases, and what else the code touches is the scratch register, the stack pointer, which comes
back to its place, and the first free cell of the stack (`Ram.exists_push_pop`).
-/

namespace HackVm

open Emit Hack Text

/-! ## Addresses of cells -/

/-- The address of a cell of a segment.  A static variable has the cell that its name means in the
loaded program. -/
def segmentAddress? (image : Image) (memory : Memory) (source : String) (index : Int) :
    Segment → Option Nat
  | .constant => none
  | .locals => some ((memory[1] + index) % 2 ^ 16).toNat
  | .argument => some ((memory[2] + index) % 2 ^ 16).toNat
  | .this => some ((memory[3] + index) % 2 ^ 16).toNat
  | .that => some ((memory[4] + index) % 2 ^ 16).toNat
  | .pointer => some (3 + index).toNat
  | .temp => some (5 + index).toNat
  | .static => some (image.meaning (.static source index))

/-- A push leaves the address of the cell as it is. -/
def Cell.IsSteady : Cell → Prop
  | .based register _ => register ≠ .sp
  | .fixed _ => True

theorem Cell.read?_eq (cell : Cell) (ram : Ram) :
    cell.read? ram = ram.read? (cell.address ram) := by
  cases cell <;> rfl

theorem Cell.address_of_push {cell : Cell} (hsteady : cell.IsSteady) {ram pushed : Ram}
    {word : Word} (hstack : 16 ≤ ram.pointer .sp) (h : ram.push word = some pushed) :
    cell.address pushed = cell.address ram := by
  cases cell with
  | fixed address => rfl
  | based register index =>
      have hpushed := Ram.pushed_of_push (by omega) h
      have hbelow : register.cell < ram.pointer .sp := by
        cases register <;> simp only [Register.cell] <;> omega
      simp only [Cell.address, hpushed.register hsteady hbelow]

/-! ## There and back in memory -/

namespace Ram

theorem exists_write? (ram : Ram) {address : Nat} (h : address < memorySize) (word : Word) :
    ∃ written, ram.write? address word = some written := by
  rw [write?, dif_pos h]
  exact ⟨_, rfl⟩

/-- The word on top goes into a cell.  If that is not the stack pointer, this goes down by one. -/
theorem exists_cell_pop {ram : Ram} {cell : Cell} {s : Nat} {word : Word} (hstack : 16 ≤ s)
    (hpointer : ram.pointer .sp = s + 1) (hread : ram.read? s = some word)
    (hcell : cell.address ram < memorySize) :
    ∃ after, cell.pop ram = some after ∧ after.read? (cell.address ram) = some word ∧
      (cell.address ram ≠ Register.sp.cell → after.pointer .sp = s) := by
  -- What is left is to store the word, once it is taken off the stack.
  have hstore : ∀ rest : Ram, rest.pointer .sp = s →
      ∃ after, rest.write? (cell.address ram) word = some after ∧
        after.read? (cell.address ram) = some word ∧
        (cell.address ram ≠ Register.sp.cell → after.pointer .sp = s) := by
    intro rest hlower
    obtain ⟨after, hwrite⟩ := rest.exists_write? hcell word
    refine ⟨after, hwrite, read?_of_write? hwrite, fun hne => ?_⟩
    rw [pointer, register_eq_of_read? (read?_of_write?_of_ne hwrite hne.symm)]
    exact hlower
  cases cell with
  | fixed address =>
      obtain ⟨rest, hpop, hlower, -⟩ := exists_pop hstack hpointer hread
      obtain ⟨after, hwrite, hafter⟩ := hstore rest hlower
      exact ⟨after, Option.bind_eq_some_iff.mpr ⟨_, hpop, hwrite⟩, hafter⟩
  | based register index =>
      let kept := ram.setRegister .scratch (BitVec.ofInt 16 index + ram.register register)
      have hsame : kept.pointer .sp = s + 1 := by
        rw [pointer_setRegister_of_ne _ (by decide)]
        exact hpointer
      have htop : kept.read? s = some word := by
        rw [read?_setRegister_of_ne _ (ne_cell_of_le hstack .scratch)]
        exact hread
      obtain ⟨rest, hpop, hlower, hrest⟩ := exists_pop hstack hsame htop
      have hscratch : rest.register .scratch = BitVec.ofInt 16 index + ram.register register := by
        rw [register_eq_of_read? (hrest _ (by decide)), register_setRegister_self]
      obtain ⟨after, hwrite, hafter⟩ := hstore rest hlower
      refine ⟨after, Option.bind_eq_some_iff.mpr ⟨_, hpop, ?_⟩, hafter⟩
      dsimp only
      rw [hscratch]
      exact hwrite

/-- A cell is pushed, and a cell at the same address is popped into. -/
theorem exists_push_pop {ram : Ram} {cell : Cell} {s : Nat} (hpointer : ram.pointer .sp = s)
    (hlow : 16 ≤ s) (hhigh : s < memorySize) (hcell : cell.address ram < memorySize) :
    ∃ pushed, (cell.read? ram).bind ram.push = some pushed ∧
      ∀ target : Cell, target.IsSteady → target.address ram = cell.address ram →
        ∃ after, target.pop pushed = some after ∧
          ∀ address, address = cell.address ram ∨
              (address ≠ Register.scratch.cell ∧ address ≠ s) →
            after.read? address = ram.read? address := by
  obtain ⟨word, hword⟩ : ∃ word, ram.read? (cell.address ram) = some word := by
    rw [read?]
    exact ⟨_, Vector.getElem?_eq_getElem hcell⟩
  obtain ⟨stored, hstored⟩ := ram.exists_write? (hpointer ▸ hhigh) word
  obtain ⟨pushed, hpush⟩ : ∃ pushed, ram.push word = some pushed :=
    ⟨_, Option.bind_eq_some_iff.mpr ⟨stored, hstored, rfl⟩⟩
  have hpushed := pushed_of_push (by omega) hpush
  refine ⟨pushed, by rw [Cell.read?_eq, hword]; exact hpush, fun target hsteady htarget => ?_⟩
  have hplace : target.address pushed = cell.address ram := by
    rw [Cell.address_of_push hsteady (by omega) hpush, htarget]
  have htop : pushed.read? s = some word := by
    rw [← hpointer]
    exact hpushed.word 0 word rfl
  obtain ⟨after, hpop, hresult, hback⟩ := exists_cell_pop hlow
    (show pushed.pointer .sp = s + 1 by rw [hpushed.pointer, hpointer]; rfl) htop
    (show target.address pushed < memorySize by omega)
  rw [hplace] at hresult hback
  refine ⟨after, hpop, fun address haddress => ?_⟩
  by_cases hself : address = cell.address ram
  · rw [hself, hresult, hword]
  · obtain ⟨hscratch, htop⟩ := haddress.resolve_left hself
    by_cases hzero : address = Register.sp.cell
    · -- The stack pointer was counted up and down again.
      subst hzero
      have hsame : after.register .sp = ram.register .sp :=
        BitVec.eq_of_toNat_eq ((hback (Ne.symm hself)).trans hpointer.symm)
      rw [read?_cell, read?_cell, hsame]
    · rw [read?_of_cell_pop hpop hzero hscratch (by omega)]
      refine hpushed.other address hzero ?_
      rw [List.length_singleton]
      omega

end Ram

/-! ## There and back on the machine -/

private theorem toNat_based {base : Word} {index : Int} :
    (BitVec.ofInt 16 index + base).toNat = ((base.toNat + index) % 2 ^ 16).toNat := by
  have hbase := base.isLt
  rw [BitVec.toNat_add, BitVec.toNat_ofInt]
  omega

private theorem getElem_cells (ram : Ram) (r : Register) :
    getElem ram.cells r.cell r.cell_lt = (ram.register r).toNat := by
  have hcell := Ram.getElem?_cells (ram.read?_cell r)
  rw [Vector.getElem?_eq_getElem r.cell_lt] at hcell
  exact Option.some.inj hcell

section Segments

variable {image : Image} (hregister : ∀ r, image.meaning (.register r) = r.cell)
  {session : Session} {source : String} (hsource : session.source = some source)
  {segment : Segment} {index : Int} (hindex : 0 ≤ index) {location : Location}
  (hlocates : session.Locates segment index location) {ram : Ram} {place : Nat}
  (hplace : segmentAddress? image ram.cells source index segment = some place)

include hregister hsource hindex hlocates hplace

/-- The code finds the cell of a segment at its address. -/
private theorem location_cases
    (hwritable : ∀ symbol, location = .direct symbol → symbol.isWritable = true) :
    (∃ r, location = .indirect r index ∧ r ≠ .sp ∧ (Cell.based r index).address ram = place) ∨
      ∃ symbol, location = .direct symbol ∧ image.meaning symbol = place := by
  have hbased : ∀ r, r ≠ .sp → location = .indirect r index →
      ((getElem ram.cells r.cell r.cell_lt + index) % 2 ^ 16).toNat = place →
      (∃ r, location = .indirect r index ∧ r ≠ .sp ∧ (Cell.based r index).address ram = place) ∨
        ∃ symbol, location = .direct symbol ∧ image.meaning symbol = place := by
    intro r hr hlocation haddress
    rw [getElem_cells, ← toNat_based] at haddress
    exact .inl ⟨r, hlocation, hr, haddress⟩
  cases hlocates with
  | constant => exact absurd hplace (by simp [segmentAddress?])
  | locals => exact hbased .lcl (by decide) rfl (Option.some.inj hplace)
  | argument => exact hbased .arg (by decide) rfl (Option.some.inj hplace)
  | this => exact hbased .this (by decide) rfl (Option.some.inj hplace)
  | that => exact hbased .that (by decide) rfl (Option.some.inj hplace)
  | temp =>
      have hnumber : isWritable (tempBase + index) = true := hwritable (.number _) rfl
      refine .inr ⟨_, rfl, ?_⟩
      rw [← Option.some.inj hplace, meaning_number (Int.add_nonneg (by decide) hindex) hnumber]
      rfl
  | pointerThis => exact .inr ⟨_, rfl, (hregister .this).trans (Option.some.inj hplace)⟩
  | pointerThat => exact .inr ⟨_, rfl, (hregister .that).trans (Option.some.inj hplace)⟩
  | static index hfound =>
      obtain rfl := Option.some.inj (hsource.symm.trans hfound)
      exact .inr ⟨_, rfl, Option.some.inj hplace⟩

private theorem exec_push_cell
    (hwritable : ∀ symbol, .load symbol ∈ pushBlock location → symbol.isWritable = true) :
    ∃ cell : Cell, cell.address ram = place ∧ ∀ core,
      (exec image.meaning (pushBlock location) core).map Core.ram =
        (cell.read? core.ram).bind core.ram.push := by
  have hdirect : ∀ symbol, location = .direct symbol → symbol.isWritable = true := by
    rintro symbol rfl
    exact hwritable symbol (by simp [pushBlock, fetch])
  rcases location_cases hregister hsource hindex hlocates hplace hdirect with
    ⟨r, rfl, -, haddress⟩ | ⟨symbol, rfl, rfl⟩
  · have hnumber : isWritable index = true :=
      hwritable (.number index) (by simp [pushBlock, fetchAddress])
    exact ⟨.based r index, haddress,
      exec_pushBlock_indirect hregister (ofNat_meaning_number hindex hnumber) r⟩
  · exact ⟨.fixed (image.meaning symbol), rfl, exec_pushBlock_direct hregister symbol⟩

private theorem exec_pop_cell {statements : List Statement}
    (hblock : popBlock? location = some statements)
    (hwritable : ∀ symbol, .load symbol ∈ statements → symbol.isWritable = true) :
    ∃ cell : Cell, cell.IsSteady ∧ cell.address ram = place ∧ ∀ core,
      (exec image.meaning statements core).map Core.ram = cell.pop core.ram := by
  have hdirect : ∀ symbol, location = .direct symbol → symbol.isWritable = true := by
    rintro symbol rfl
    obtain rfl := Option.some.inj hblock
    exact hwritable symbol (by simp [store])
  rcases location_cases hregister hsource hindex hlocates hplace hdirect with
    ⟨r, rfl, hsteady, haddress⟩ | ⟨symbol, rfl, rfl⟩
  · have hnumber : isWritable index = true := by
      obtain rfl := Option.some.inj hblock
      exact hwritable (.number index) (by simp [fetchAddress])
    exact ⟨.based r index, hsteady, haddress,
      exec_popBlock_indirect hregister (ofNat_meaning_number hindex hnumber) r hblock⟩
  · exact ⟨.fixed (image.meaning symbol), trivial, rfl,
      exec_popBlock_direct hregister symbol hblock⟩

end Segments

section Commands

variable {settings : Settings} {sources : List Source} {image : Image}
  (h : Builds settings sources image) (hnames : SingleLineNames sources)
  (hregister : ∀ r, image.meaning (.register r) = r.cell) {i : Nat} {source : String}
  {segment : Segment} {index : Int} {ram : Ram} {place : Nat}
  (hplace : segmentAddress? image ram.cells source index segment = some place)

include h hnames hregister hplace

/-- The code of a push copies a cell at the address of the segment's cell. -/
theorem Builds.reaches_push
    (hentry : (listing sources)[i]? = some ⟨source, .push segment.word index⟩) :
    ∃ cell : Cell, cell.address ram = place ∧ ∀ (core : Core) (result : Ram) (steps : Nat),
      (cell.read? core.ram).bind core.ram.push = some result →
        ∃ last : Core, last.ram = result ∧
          Reaches image.rom (core.state (address settings sources i) steps)
            (last.state (address settings sources (i + 1)) steps) := by
  obtain ⟨session, next, body, hsource, hblock, hlaid, hnext, hbody⟩ := h.block hnames hentry
  have hindex := (isPlain_of_mem_listing (List.mem_of_getElem? hentry)).1.number index rfl
  cases block_eq_ok_iff.mp hblock with
  | push hsegment hlocates =>
      obtain rfl := Option.some.inj ((Segment.ofWord?_word segment).symm.trans hsegment)
      obtain ⟨cell, haddress, hexec⟩ := exec_push_cell hregister hsource hindex hlocates hplace
        fun symbol hload => (hbody _ hload).2
      refine ⟨cell, haddress, fun core result steps hresult => ?_⟩
      rw [hnext]
      exact reaches_straight hlaid ((hexec core).trans hresult) steps

/-- The code of a pop stores into a cell at the address of the segment's cell. -/
theorem Builds.reaches_pop
    (hentry : (listing sources)[i]? = some ⟨source, .pop segment.word index⟩) :
    ∃ cell : Cell, cell.IsSteady ∧ cell.address ram = place ∧
      ∀ (core : Core) (result : Ram) (steps : Nat), cell.pop core.ram = some result →
        ∃ last : Core, last.ram = result ∧
          Reaches image.rom (core.state (address settings sources i) steps)
            (last.state (address settings sources (i + 1)) steps) := by
  obtain ⟨session, next, body, hsource, hblock, hlaid, hnext, hbody⟩ := h.block hnames hentry
  have hindex := (isPlain_of_mem_listing (List.mem_of_getElem? hentry)).1.number index rfl
  cases block_eq_ok_iff.mp hblock with
  | pop hsegment hlocates hpop =>
      obtain rfl := Option.some.inj ((Segment.ofWord?_word segment).symm.trans hsegment)
      obtain ⟨cell, hsteady, haddress, hexec⟩ :=
        exec_pop_cell hregister hsource hindex hlocates hplace hpop
          fun symbol hload => (hbody _ hload).2
      refine ⟨cell, hsteady, haddress, fun core result steps hresult => ?_⟩
      rw [hnext]
      exact reaches_straight hlaid ((hexec core).trans hresult) steps

end Commands

variable {settings : Settings} {sources : List Source} {image : Image}

/-- A push that is followed by a pop of the same cell changes nothing, whatever the cell is.  With
the stack above the registers the machine comes from the first instruction of the two blocks to the
first one after them; the stack pointer is where it was, and the cell and all others are as before,
but for the scratch register and the first free cell of the stack. -/
theorem push_pop_restores (h : Builds settings sources image) (hnames : SingleLineNames sources)
    (hclean : ∀ entry ∈ listing sources, ∀ name ∈ entry.command.declares?,
      predefined.lookup name = none)
    {i : Nat} {first second : String} {segment : Segment} {index : Int}
    (hpush : (listing sources)[i]? = some ⟨first, .push segment.word index⟩)
    (hpop : (listing sources)[i + 1]? = some ⟨second, .pop segment.word index⟩)
    {state : State} (hpc : state.pc = address settings sources i)
    (hcells : ∀ cell ∈ state.memory.toList, 0 ≤ cell ∧ cell ≤ 65535)
    {s place : Nat} (hsp : state.stackPointer = s) (hlow : 16 ≤ s) (hhigh : s < memorySize)
    (hfirst : segmentAddress? image state.memory first index segment = some place)
    (hsecond : segmentAddress? image state.memory second index segment = some place)
    (hplace : place < memorySize) :
    ∃ (made : Nat) (final : State), State.stepTimes image.rom made state = (final, none) ∧
      final.pc = address settings sources (i + 2) ∧ final.stackPointer = s ∧
      (∀ cell, cell ≠ 13 → cell ≠ s → final.memory[cell]? = state.memory[cell]?) ∧
      final.memory[place]? = state.memory[place]? := by
  have hregister := meaning_register_of_unshadowed h hnames hclean
  -- The cells are words, so the state is one of the stack machine's.
  obtain ⟨a, d, pc, memory, steps⟩ := state
  obtain ⟨ram, rfl⟩ := Ram.exists_cells_eq hcells
  dsimp only at hpc hfirst hsecond
  subst hpc
  have hpointer : ram.pointer .sp = s :=
    Int.ofNat.inj ((Core.stackPointer_state ⟨a, d, ram⟩ _ steps).symm.trans hsp)
  obtain ⟨cell, haddress, hreachPush⟩ := h.reaches_push hnames hregister hfirst hpush
  obtain ⟨target, hsteady, htarget, hreachPop⟩ := h.reaches_pop hnames hregister hsecond hpop
  obtain ⟨pushed, hpushed, hback⟩ :=
    Ram.exists_push_pop hpointer hlow hhigh (haddress.symm ▸ hplace)
  obtain ⟨after, hafter, hkept⟩ := hback target hsteady (htarget.trans haddress.symm)
  rw [haddress] at hkept
  obtain ⟨middle, rfl, hto⟩ := hreachPush ⟨a, d, ram⟩ pushed steps hpushed
  obtain ⟨last, rfl, hfrom⟩ := hreachPop middle after steps hafter
  obtain ⟨made, hmade⟩ := hto.trans hfrom
  have hcell : ∀ address, address = place ∨ (address ≠ 13 ∧ address ≠ s) →
      last.ram.cells[address]? = ram.cells[address]? := by
    intro address hsame
    rw [Ram.getElem?_cells_eq, Ram.getElem?_cells_eq, hkept address hsame]
  refine ⟨made, _, hmade, rfl, ?_,
    fun address hscratch htop => hcell address (.inr ⟨hscratch, htop⟩), hcell place (.inl rfl)⟩
  have hstack : last.ram.register .sp = ram.register .sp :=
    Ram.register_eq_of_read? (hkept _ (.inr ⟨by decide, (Ram.ne_cell_of_le hlow .sp).symm⟩))
  rw [Core.stackPointer_state, Ram.pointer, hstack]
  exact congrArg Int.ofNat hpointer

private def aliasSample : List Source := [⟨"Main", ["push local 3", "pop local 3"]⟩]

/-- The base lies three cells below the scratch register. -/
private def aliasStart : State :=
  { State.initial with
    memory := .ofFn fun cell =>
      if cell.val = 0 then 256
      else if cell.val = 1 then 10
      else if cell.val = 13 then 77
      else 0 }

/-- The cell is the scratch register, in which the pop keeps the address of the cell. -/
theorem push_pop_restores_sample :
    ∃ (image : Image) (made : Nat) (final : State), Builds ⟨false, false, 256⟩ aliasSample image ∧
      State.stepTimes image.rom made aliasStart = (final, none) ∧
      final.stackPointer = 256 ∧ final.memory[13]? = some 77 := by
  have hsome : (build? ⟨false, false, 256⟩ aliasSample).isSome = true := by decide +kernel
  obtain ⟨image, himage⟩ := Option.isSome_iff_exists.mp hsome
  have hbuilds := builds_of_build? (by decide) himage
  have hpush : (listing aliasSample)[0]? = some ⟨"Main", .push Segment.locals.word 3⟩ := by
    decide +kernel
  have hpop : (listing aliasSample)[1]? = some ⟨"Main", .pop Segment.locals.word 3⟩ := by
    decide +kernel
  have hpc : aliasStart.pc = address ⟨false, false, 256⟩ aliasSample 0 := by decide +kernel
  have hcells : ∀ cell ∈ aliasStart.memory.toList, 0 ≤ cell ∧ cell ≤ 65535 := by
    intro cell hmem
    obtain ⟨i, hi, rfl⟩ := List.mem_iff_getElem.mp hmem
    simp only [aliasStart, Vector.getElem_toList, Vector.getElem_ofFn]
    split_ifs <;> decide
  have hsp : aliasStart.stackPointer = 256 := by simp [State.stackPointer, aliasStart]
  have hplace : segmentAddress? image aliasStart.memory "Main" 3 .locals = some 13 := by
    simp [segmentAddress?, aliasStart]
  have hcell : aliasStart.memory[13]? = some 77 := by
    rw [Vector.getElem?_eq_getElem (by decide)]
    simp [aliasStart]
  obtain ⟨made, final, hmade, -, hpointer, -, hsame⟩ :=
    push_pop_restores hbuilds (by decide) (by decide +kernel) hpush hpop hpc hcells hsp
      (by decide) (by decide) hplace hplace (by decide)
  exact ⟨image, made, final, hbuilds, hmade, hpointer, hsame.trans hcell⟩

end HackVm
