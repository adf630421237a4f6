import HackVm.Proofs.Compilation.Loading

/-!
# Names of a program and symbols of the loader

Names reach the assembly as they are written, and the loader decides again what each of them is: a
number if it is made of digits, else the label of that name, else a register, else a variable.  Here
it is said for every name that a program may declare where the two readings agree.

* A jump to a declared name loads the address of the declaration, unless the name is made of digits
  (`jump_loads_declaration_or_number`).
* A register means its cell, unless a command declares its name; then every instruction that is to
  use the register uses the address of that declaration (`register_loads_cell_or_label`).

Neither exception is reported anywhere: both programs at the end of the sections compile and load.
-/

namespace HackVm

open Emit Hack Text

variable {settings : Settings} {sources : List Source} {image : Image}

/-! ## Jumps -/

/-- Digits that a program jumps to are a number if the program loads. -/
theorem Builds.readInt_target (h : Builds settings sources image) (hnames : SingleLineNames sources)
    {entry : Entry} (hentry : entry ∈ listing sources) {name : String}
    (htarget : entry.command.target? = some name) (hdigits : isNumberText name.toList = true) :
    ∃ value : Nat, readInt 10 name = .ok (value : Int) := by
  obtain ⟨text, hcompile, hload⟩ := h
  rw [load_compiled hcompile hnames] at hload
  obtain ⟨-, hreadable⟩ := exists_ofLines_iff.mp ⟨image, hload⟩
  cases hread : readInt 10 name with
  | ok value =>
      have hnonneg : 0 ≤ value := readInt_nonneg hdigits (by rwa [String.ofList_toList])
      obtain ⟨natural, rfl⟩ := Int.eq_ofNat_of_zero_le hnonneg
      exact ⟨natural, rfl⟩
  | error reason =>
      obtain ⟨line, hline, hwrong⟩ := exists_unreadable_of_misreadsTarget hcompile hnames
        ⟨entry, hentry, name, htarget, hdigits, hread⟩
      exact absurd hwrong (hreadable line hline _)

/-- A name that is made of digits means the number that they are. -/
theorem meaning_digits {name : String} {value : Nat} (hword : IsWord name)
    (hdigits : isNumberText name.toList = true) (hvalue : readInt 10 name = .ok (value : Int)) :
    image.meaning (.name name) = value := by
  have hoperand : (Symbol.name name).operand = name.toList := Symbol.operand_of_isWord hword
  rw [Image.meaning, operandValue, hoperand, if_pos hdigits, String.ofList_toList, hvalue]
  rfl

/-- A jump is the last thing that its block does, after loading its target. -/
theorem Builds.rom_jump (h : Builds settings sources image) (hnames : SingleLineNames sources)
    {i : Nat} {entry : Entry} (hentry : (listing sources)[i]? = some entry) {name : String}
    (htarget : entry.command.target? = some name) :
    ∃ place computation condition, address settings sources (i + 1) = place + 2 ∧
      image.rom[place]? = some (.load (image.meaning (.name name))) ∧
      image.rom[place + 1]? =
        some (.compute ⟨false, false, false⟩ computation (some condition)) := by
  obtain ⟨session, next, body, -, hblock, hlaid, hnext, -⟩ := h.block hnames hentry
  obtain ⟨front, computation, condition, rest, rfl, hrest⟩ := jump_of_block hblock htarget
  obtain ⟨hload, hjump, -⟩ := (laysOut_append.mp hlaid).2
  -- What comes after the jump is at most a label and takes no room.
  refine ⟨address settings sources i + codeSize front, computation, condition, ?_, hload, hjump⟩
  rw [hnext, codeSize_append, codeSize_cons, codeSize_cons, hrest]
  simp only [isCode, jumpIf, if_true]
  omega

/-- A jump to a declared name loads the address of the declaration, unless the name is made of
digits.  Then it loads the number that they are, whatever is declared. -/
theorem jump_loads_declaration_or_number (h : Builds settings sources image)
    (hnames : SingleLineNames sources) {i j : Nat} {jump declaration : Entry} {name : String}
    (hjump : (listing sources)[i]? = some jump) (htarget : jump.command.target? = some name)
    (hdeclaration : (listing sources)[j]? = some declaration)
    (hdeclares : declaration.command.declares? = some name) :
    ∃ place value computation condition, address settings sources (i + 1) = place + 2 ∧
      image.rom[place]? = some (.load value) ∧
      image.rom[place + 1]? =
        some (.compute ⟨false, false, false⟩ computation (some condition)) ∧
      (isNumberText name.toList = false → value = address settings sources j) ∧
      (isNumberText name.toList = true → readInt 10 name = .ok (value : Int)) := by
  have hmem := List.mem_of_getElem? hjump
  have hword := (isPlain_of_mem_listing hmem).1.word name (Command.word?_of_target? htarget)
  obtain ⟨place, computation, condition, hplace, hload, hnext⟩ := h.rom_jump hnames hjump htarget
  refine ⟨place, _, computation, condition, hplace, hload, hnext, ?_, ?_⟩
  · intro hname
    exact meaning_label hword hname (h.lookup_declared hnames hdeclaration hdeclares)
  · intro hdigits
    obtain ⟨value, hvalue⟩ := h.readInt_target hnames hmem htarget hdigits
    rw [meaning_digits hword hdigits hvalue, hvalue]

theorem jump_loads_declaration_or_number_sample :
    let settings : Settings := ⟨false, false, 256⟩
    let sources : List Source := [⟨"Main", ["push constant 1", "label loop", "goto loop"]⟩]
    ∃ image, Builds settings sources image ∧ image.rom[7]? = some (.load 7) ∧
      ∃ computation condition, image.rom[8]? =
        some (.compute ⟨false, false, false⟩ computation (some condition)) := by
  intro settings sources
  have hsome : (build? settings sources).isSome = true := by decide +kernel
  have hjump : (listing sources)[2]? = some ⟨"Main", .goto "loop"⟩ := by decide +kernel
  have hlabel : (listing sources)[1]? = some ⟨"Main", .label "loop"⟩ := by decide +kernel
  have hend : address settings sources 3 = 9 := by decide +kernel
  have hstart : address settings sources 1 = 7 := by decide +kernel
  obtain ⟨image, himage⟩ := Option.isSome_iff_exists.mp hsome
  have hbuilds := builds_of_build? (by decide) himage
  obtain ⟨place, value, computation, condition, hplace, hload, hnext, hvalue, -⟩ :=
    jump_loads_declaration_or_number hbuilds (by decide) hjump rfl hlabel rfl
  have hlast : 9 = place + 2 := hend.symm.trans hplace
  obtain rfl : place = 7 := by omega
  rw [hvalue (by decide), hstart] at hload
  exact ⟨image, hbuilds, hload, computation, condition, hnext⟩

/-- The label stands at the start of the program, and the jump to it goes elsewhere. -/
theorem jump_misses_numeric_label :
    let settings : Settings := ⟨false, false, 256⟩
    let sources : List Source := [⟨"Main", ["label 5", "goto 5"]⟩]
    listing sources = [⟨"Main", .label "5"⟩, ⟨"Main", .goto "5"⟩] ∧
      ∃ image, Builds settings sources image ∧ image.labels.lookup "5" = some 0 ∧
        image.rom = #[.load 5, .compute ⟨false, false, false⟩ .zero (some .always)] := by
  intro settings sources
  have himage : build? settings sources = some
      ⟨#[.load 5, .compute ⟨false, false, false⟩ .zero (some .always)], [("5", 0)], []⟩ := by
    decide +kernel
  exact ⟨by decide +kernel, _, builds_of_build? (by decide) himage, by decide, rfl⟩

/-! ## Registers -/

/-- An instruction that is to load a register loads its cell, unless a command declares the name of
the register.  Then it loads the address of that declaration. -/
theorem register_loads_cell_or_label (h : Builds settings sources image)
    (hnames : SingleLineNames sources) {front rest : List Statement} {register : Register}
    (hcode : programCode settings sources = front ++ .load (.register register) :: rest) :
    ∃ value, image.rom[codeSize front]? = some (.load value) ∧
      ((∀ entry ∈ listing sources, entry.command.declares? ≠ some register.text) →
        value = register.cell) ∧
      ∀ j entry, (listing sources)[j]? = some entry →
        entry.command.declares? = some register.text → value = address settings sources j := by
  have hlaid := (h.laysOut hnames).1
  rw [hcode] at hlaid
  obtain ⟨hload, -⟩ := (laysOut_append.mp hlaid).2
  rw [Nat.zero_add] at hload
  refine ⟨_, hload, meaning_register_of_free h hnames, ?_⟩
  intro j entry hentry hdeclares
  exact meaning_register_of_label (h.lookup_declared hnames hentry hdeclares)

/-- A program that pushes a constant and declares a label after that. -/
def pushSample (name : String) : List Source :=
  [⟨"Main", ["push constant 7", "label " ++ name]⟩]

theorem register_loads_cell_or_label_sample :
    ∃ image, Builds ⟨false, false, 256⟩ (pushSample "end") image ∧
      image.rom[2]? = some (.load 0) := by
  have hsome : (build? ⟨false, false, 256⟩ (pushSample "end")).isSome = true := by decide +kernel
  have hcode : programCode ⟨false, false, 256⟩ (pushSample "end") =
      fetchAddress (.number 7) ++ .load (.register .sp) :: (pushD.drop 1 ++ labelBlock "end") := by
    decide +kernel
  have hfree : ∀ entry ∈ listing (pushSample "end"),
      entry.command.declares? ≠ some Register.sp.text := by decide +kernel
  obtain ⟨image, himage⟩ := Option.isSome_iff_exists.mp hsome
  have hbuilds := builds_of_build? (by decide) himage
  obtain ⟨value, hload, hcell, -⟩ := register_loads_cell_or_label hbuilds (by decide) hcode
  rw [hcell hfree] at hload
  exact ⟨image, hbuilds, hload⟩

/-- With a label of that name, every load of the stack pointer is a load of the label. -/
theorem register_captured_by_label :
    programCode ⟨false, false, 256⟩ (pushSample "SP") =
        fetchAddress (.number 7) ++ .load (.register .sp) :: (pushD.drop 1 ++ labelBlock "SP") ∧
      ∃ image, Builds ⟨false, false, 256⟩ (pushSample "SP") image ∧
        image.rom[2]? = some (.load 7) := by
  have himage : build? ⟨false, false, 256⟩ (pushSample "SP") = some
      ⟨#[.load 7, .compute intoD (.operand .a) none, .load 7, .compute intoA (.operand .m) none,
        .compute intoM .d none, .load 7, .compute intoM (.succOperand .m) none],
        [("SP", 7)], []⟩ := by decide +kernel
  exact ⟨by decide +kernel, _, builds_of_build? (by decide) himage, rfl⟩

end HackVm
