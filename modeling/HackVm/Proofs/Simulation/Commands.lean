import HackVm.Proofs.Simulation.Comparison

/-!
# Commands in place

A program that compiles and loads is a program of the stack machine (`Program.ofImage`), and the
machine carries out its commands one by one.  Here are the parts of that: what the machine does with
a block that is laid out in its program memory, whatever program the block belongs to.

The blocks are known to stand where the program says.  What is left to show for each command is that
the symbols in its block mean the right addresses: `meaning_target` for jumps and calls,
`meaning_back` for the returns of calls, and `Session.Locates.cell` for segments.
-/

namespace HackVm

open Emit Hack Text

/-- The program of the stack machine that an image was built from. -/
def Program.ofImage (settings : Settings) (sources : List Source) (image : Image) : Program where
  entries := listing sources
  address := HackVm.address settings sources
  static? source index := image.symbol? (Symbol.static source index).text
  start? := if settings.bootstrap then some settings.stackBase else none

/-- The address of a point in program memory. -/
def Program.place (program : Program) : Point → Nat
  | .start => 0
  | .command i => program.address i

/-! ## Parts of blocks -/

section Parts

variable {image : Image} (hregister : ∀ r, image.meaning (.register r) = r.cell)

theorem reaches_straight {statements : List Statement} {address : Nat} {core : Core} {result : Ram}
    (hlaid : image.LaysOut address statements)
    (hexec : (exec image.meaning statements core).map Core.ram = some result) (steps : Nat) :
    ∃ last : Core, last.ram = result ∧ Reaches image.rom (core.state address steps)
      (last.state (address + codeSize statements) steps) := by
  obtain ⟨last, hlast, hram⟩ := Option.map_eq_some_iff.mp hexec
  exact ⟨last, hram, reaches_of_exec hlaid hlast⟩

include hregister

-- The block of a comparison is long, and nothing here looks into it.
attribute [local irreducible] comparisonBlock in
theorem reaches_operate {session : Session} {operator : Operator} {address : Nat} {core : Core}
    {result : Ram} (hlaid : image.LaysOut address (session.operate operator).2)
    (happly : operator.apply core.ram = some result) (steps : Nat) :
    ∃ last : Core, last.ram = result ∧ Reaches image.rom (core.state address steps)
      (last.state (address + codeSize (session.operate operator).2) steps) := by
  by_cases hjump : operator ≠ .eq ∧ operator ≠ .gt ∧ operator ≠ .lt
  · refine reaches_straight hlaid ?_ steps
    rw [exec_operate hregister hjump, happly]
  · cases operator with
    | eq => exact reaches_equal hregister hlaid happly steps
    | gt =>
        have hholds : ∀ x y,
            Comparison.gt.jump.isTaken (orderWord x y) = decide (y.toInt < x.toInt) :=
          fun x y => decide_eq_decide.mpr (toInt_orderWord x y).1
        exact reaches_ordered hregister (by decide) hholds hlaid happly steps
    | lt =>
        have hholds : ∀ x y,
            Comparison.lt.jump.isTaken (orderWord x y) = decide (x.toInt < y.toInt) :=
          fun x y => decide_eq_decide.mpr (toInt_orderWord x y).2
        exact reaches_ordered hregister (by decide) hholds hlaid happly steps
    | _ => exact absurd (by decide) hjump

theorem reaches_ifGoto {name : String} {address target : Nat}
    (hlaid : image.LaysOut address (ifGotoBlock name)) {core : Core} {word : Word} {rest : Ram}
    (hpop : core.ram.pop = some (word, rest))
    (htarget : word ≠ 0 → image.meaning (.name name) = target) (steps : Nat) :
    ∃ last : Core, last.ram = rest ∧ Reaches image.rom (core.state address steps)
      (last.state (if word = 0 then address + codeSize (ifGotoBlock name) else target) steps) := by
  obtain ⟨htake, hjump⟩ := laysOut_append.mp hlaid
  have hpopped : exec image.meaning popD core = some ⟨core.ram.top.toNat, word, rest⟩ := by
    rw [exec_popD hregister, hpop, Option.map_some]
  have hfirst := @reaches_of_exec _ _ _ steps _ _ htake hpopped
  have hzero : (word.toInt ≠ 0) ↔ word ≠ 0 := by
    rw [← @BitVec.toInt_zero 16, ne_eq, BitVec.toInt_inj]
    rfl
  by_cases hword : word = 0
  · have hstay : Jump.ne.isTaken word = false := by
      rw [hword]
      decide
    rw [if_pos hword]
    exact ⟨_, rfl, hfirst.trans (reaches_of_not_jumpWhen hjump hstay _ rest steps)⟩
  · have htaken : Jump.ne.isTaken word = true := by
      simpa [Jump.isTaken] using hzero.mpr hword
    rw [if_neg hword]
    exact ⟨_, rfl, hfirst.trans (reaches_jumpWhen hjump (htarget hword) htaken _ rest steps)⟩

theorem reaches_call {function : String} {arguments : Int} {back : Symbol} {address target : Nat}
    (hlaid : image.LaysOut address (callBlock function arguments back))
    (hsize : BitVec.ofNat 16 (image.meaning (.number (frameSize + arguments))) =
      BitVec.ofInt 16 (5 + arguments))
    (htarget : image.meaning (.name function) = target) {core : Core} {entered : Ram}
    (henter : core.ram.enter (BitVec.ofNat 16 (image.meaning back)) arguments = some entered)
    (steps : Nat) :
    ∃ last : Core, last.ram = entered ∧ Reaches image.rom (core.state address steps)
      (last.state target steps) := by
  rw [callBlock_eq] at hlaid
  obtain ⟨hframe, hlaid⟩ := laysOut_append.mp hlaid
  obtain ⟨hjump, -⟩ := laysOut_append.mp hlaid
  obtain ⟨last, hexec, hram⟩ := exec_enter hregister hsize henter
  refine ⟨⟨target, last.d, last.ram⟩, hram, (reaches_of_exec hframe hexec).trans ?_⟩
  exact reaches_jumpTo hjump htarget last.a last.d last.ram steps

theorem reaches_bootstrap {base : Int} {back : Symbol} {address target : Nat}
    (hlaid : image.LaysOut address (bootstrapBlock base back))
    (hbase : BitVec.ofNat 16 (image.meaning (.number base)) = BitVec.ofInt 16 base)
    (hsize : BitVec.ofNat 16 (image.meaning (.number (frameSize + 0))) = BitVec.ofInt 16 (5 + 0))
    (htarget : image.meaning (.name entryFunction) = target) {core : Core} {entered : Ram}
    (henter : (core.ram.setRegister .sp (BitVec.ofInt 16 base)).enter
      (BitVec.ofNat 16 (image.meaning back)) 0 = some entered) (steps : Nat) :
    ∃ last : Core, last.ram = entered ∧ Reaches image.rom (core.state address steps)
      (last.state target steps) := by
  obtain ⟨hset, hcall⟩ := laysOut_append.mp hlaid
  have hexec : exec image.meaning (fetchAddress (.number base) ++ store (.register .sp)) core =
      some ⟨Register.sp.cell, BitVec.ofInt 16 base,
        core.ram.setRegister .sp (BitVec.ofInt 16 base)⟩ := by
    have haddress := @exec_fetchAddress image.meaning (.number base) core
    rw [hbase] at haddress
    exact exec_trans haddress (exec_store_register hregister .sp _)
  obtain ⟨last, hram, hreach⟩ :=
    @reaches_call _ hregister _ _ _ _ _ hcall hsize htarget ⟨_, _, _⟩ _ henter steps
  exact ⟨last, hram, (reaches_of_exec hset hexec).trans hreach⟩

theorem reaches_return
    (hnumber : ∀ distance : Nat, distance ≤ 5 → image.meaning (.number distance) = distance)
    {address : Nat} (hlaid : image.LaysOut address returnBlock) {core : Core} {back : Word}
    {left : Ram} (hleave : core.ram.leave = some (back, left)) (steps : Nat) :
    ∃ last : Core, last.ram = left ∧ Reaches image.rom (core.state address steps)
      (last.state back.toNat steps) := by
  rw [returnBlock_eq] at hlaid
  obtain ⟨hleaves, hjump, -⟩ := laysOut_append.mp hlaid
  obtain ⟨last, hexec, hback, hram⟩ := exec_leave hregister hnumber hleave
  have hstep := @step_jump _ last _ steps _ _ _ hjump rfl
  refine ⟨last, hram, (reaches_of_exec hleaves hexec).trans (.step hstep ?_)⟩
  rw [← hback]
  exact .refl _

end Parts

/-! ## What the symbols of a block mean -/

section Meanings

variable {settings : Settings} {sources : List Source} {image : Image}

theorem ofNat_meaning_number {value : Int} (hvalue : 0 ≤ value)
    (hwritable : isWritable value = true) :
    BitVec.ofNat 16 (image.meaning (.number value)) = BitVec.ofInt 16 value := by
  rw [meaning_number hvalue hwritable]
  apply BitVec.eq_of_toInt_eq
  rw [BitVec.toInt_ofInt, BitVec.toInt_ofNat', Int.toNat_of_nonneg hvalue]

theorem meaning_distance (distance : Nat) (h : distance ≤ 5) :
    image.meaning (.number distance) = distance := by
  have hwritable : isWritable (distance : Int) = true := isWritable_of_lt (by omega)
  rw [meaning_number (Int.natCast_nonneg _) hwritable, Int.toNat_natCast]

theorem mem_of_target? {program : Program} {name : String} {i : Nat}
    (h : program.target? name = some i) :
    ∃ entry, program.entries[i]? = some entry ∧ entry.command.declares? = some name := by
  obtain ⟨hi, hdeclares, -⟩ := List.findIdx?_eq_some_iff_getElem.mp h
  exact ⟨_, List.getElem?_eq_getElem hi, eq_of_beq hdeclares⟩

/-- The name of a target means the address of the command that declares it. -/
theorem meaning_target (h : Builds settings sources image) (hnames : SingleLineNames sources)
    (hclean : CleanLabels sources) {name : String} {i : Nat}
    (htarget : (Program.ofImage settings sources image).target? name = some i) :
    image.meaning (.name name) = address settings sources i := by
  obtain ⟨entry, hentry, hdeclares⟩ := mem_of_target? htarget
  have hmem : entry ∈ listing sources := List.mem_of_getElem? hentry
  have hword := (isPlain_of_mem_listing hmem).1.word name (Command.word?_of_declares? hdeclares)
  exact meaning_label hword (hclean entry hmem name hdeclares).1
    (h.lookup_declared hnames hentry hdeclares)

/-- The label after a call means the address at which the call's code ends. -/
theorem meaning_back (h : Builds settings sources image) (hnames : SingleLineNames sources)
    {function : String} {arguments : Int} {session : Session} {start : Nat}
    (hlaid : image.LaysOut start (callBlock function arguments session.nextReturn))
    (hmem : .declare session.nextReturn ∈ programCode settings sources) :
    image.meaning session.nextReturn =
      start + codeSize (callBlock function arguments session.nextReturn) := by
  rw [callBlock_eq, ← List.append_assoc] at hlaid
  obtain ⟨-, hlookup, -⟩ := laysOut_append.mp hlaid
  rw [callBlock_eq, ← List.append_assoc, codeSize_append]
  obtain ⟨hplain, hlabel⟩ := h.isPlain hnames _ hmem
  exact meaning_label (hplain.isWord hlabel) (isNumberText_of_isMadeUp rfl) hlookup

/-- The code finds a cell of a segment where the program has it. -/
theorem Emit.Session.Locates.cell (hregister : ∀ r, image.meaning (.register r) = r.cell)
    {session : Session} {source : String} {segment : Segment} {index : Int} {location : Location}
    {cell : Cell} (hlocates : session.Locates segment index location)
    (hsource : session.source = some source) (hmark : ¬ commentMark <:+: source.toList)
    (hindex : 0 ≤ index)
    (hwritable : ∀ symbol, location = .direct symbol → symbol.isWritable = true)
    (hcell : (Program.ofImage settings sources image).cell? source segment index = some cell) :
    (∃ r, location = .indirect r index ∧ cell = .based r index) ∨
      ∃ symbol, location = .direct symbol ∧ cell = .fixed (image.meaning symbol) := by
  cases hlocates with
  | constant => exact absurd hcell (by simp [Program.cell?])
  | locals => exact Or.inl ⟨.lcl, rfl, (Option.some.inj hcell).symm⟩
  | argument => exact Or.inl ⟨.arg, rfl, (Option.some.inj hcell).symm⟩
  | this => exact Or.inl ⟨.this, rfl, (Option.some.inj hcell).symm⟩
  | that => exact Or.inl ⟨.that, rfl, (Option.some.inj hcell).symm⟩
  | temp =>
      have hnumber : isWritable (tempBase + index) = true := hwritable (.number _) rfl
      have hpositive : 0 ≤ tempBase + index := Int.add_nonneg (by decide) hindex
      refine Or.inr ⟨_, rfl, ?_⟩
      rw [← Option.some.inj hcell, meaning_number hpositive hnumber]
      rfl
  | pointerThis =>
      refine Or.inr ⟨_, rfl, ?_⟩
      rw [hregister, ← Option.some.inj hcell]
  | pointerThat =>
      refine Or.inr ⟨_, rfl, ?_⟩
      rw [hregister, ← Option.some.inj hcell]
  | static index hfound =>
      obtain rfl := Option.some.inj (hsource.symm.trans hfound)
      obtain ⟨place, hplace, rfl⟩ := Option.map_eq_some_iff.mp hcell
      refine Or.inr ⟨_, rfl, ?_⟩
      rw [meaning_static hmark hindex,
        show image.symbol? (Symbol.static source index).text = some place from hplace]
      rfl

end Meanings

/-! ## Pushes and pops -/

section Memory

variable {settings : Settings} {sources : List Source} {image : Image}
  (hregister : ∀ r, image.meaning (.register r) = r.cell) {session : Session}
  {source : String} (hsource : session.source = some source)
  (hmark : ¬ commentMark <:+: source.toList) {segment : Segment} {index : Int} (hindex : 0 ≤ index)
  {location : Location} (hlocates : session.Locates segment index location)

include hregister hsource hmark hindex hlocates

theorem exec_push
    (hwritable : ∀ symbol, .load symbol ∈ pushBlock location → symbol.isWritable = true)
    {core : Core} {value : Word}
    (hvalue : (Program.ofImage settings sources image).value? source segment index core.ram =
      some value) :
    (exec image.meaning (pushBlock location) core).map Core.ram = core.ram.push value := by
  by_cases hsegment : segment = .constant
  · subst hsegment
    cases hlocates
    have hnumber : isWritable index = true :=
      hwritable (.number index) (by simp [pushBlock, fetchAddress])
    rw [exec_pushBlock_constant hregister, ofNat_meaning_number hindex hnumber]
    exact congrArg core.ram.push (Option.some.inj hvalue)
  · have hcell : ((Program.ofImage settings sources image).cell? source segment index).bind
        (·.read? core.ram) = some value := by
      cases segment <;> first | exact absurd rfl hsegment | exact hvalue
    obtain ⟨cell, hcell, hread⟩ := Option.bind_eq_some_iff.mp hcell
    have hdirect : ∀ symbol, location = .direct symbol → symbol.isWritable = true := by
      rintro symbol rfl
      exact hwritable symbol (by simp [pushBlock, fetch])
    rcases hlocates.cell hregister hsource hmark hindex hdirect hcell with
      ⟨r, rfl, rfl⟩ | ⟨symbol, rfl, rfl⟩
    · have hnumber : isWritable index = true :=
        hwritable (.number index) (by simp [pushBlock, fetchAddress])
      rw [exec_pushBlock_indirect hregister (ofNat_meaning_number hindex hnumber), hread]
      rfl
    · rw [exec_pushBlock_direct hregister, show core.ram.read? _ = some value from hread]
      rfl

theorem exec_pop {statements : List Statement} (hblock : popBlock? location = some statements)
    (hwritable : ∀ symbol, .load symbol ∈ statements → symbol.isWritable = true)
    {cell : Cell}
    (hcell : (Program.ofImage settings sources image).cell? source segment index = some cell)
    (core : Core) :
    (exec image.meaning statements core).map Core.ram = cell.pop core.ram := by
  have hdirect : ∀ symbol, location = .direct symbol → symbol.isWritable = true := by
    rintro symbol rfl
    obtain rfl := Option.some.inj hblock
    exact hwritable symbol (by simp [store])
  rcases hlocates.cell hregister hsource hmark hindex hdirect hcell with
    ⟨r, rfl, rfl⟩ | ⟨symbol, rfl, rfl⟩
  · have hnumber : isWritable index = true := by
      obtain rfl := Option.some.inj hblock
      exact hwritable (.number index) (by simp [fetchAddress])
    exact exec_popBlock_indirect hregister (ofNat_meaning_number hindex hnumber) r hblock core
  · exact exec_popBlock_direct hregister symbol hblock core

end Memory

end HackVm
