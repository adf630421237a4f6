import HackVm.Cli.Run
import HackVm.Proofs.Assembly.Resolution
import HackVm.Proofs.Emission.Meaning

/-!
# The stack base takes effect

A program with start-up code begins with four instructions that put the stack base into the stack
pointer:

```text
@base    D=A    @SP    M=D
```

The base is written as a decimal numeral, and the loader takes digits alone for a number.  So a base
that is not negative becomes the stack pointer, as far as a word holds it.  A sign makes a symbol of
the numeral, like any other name: the stack pointer then becomes the address of the label that is
spelled like it, and without such a label the first cell for variables, whatever the base is
(`stack_base_takes_effect`).
-/

namespace HackVm

open Emit Hack Text

/-! ## Four steps -/

/-- Four instructions that put a number into a cell. -/
theorem stepTimes_store {rom : Array Instruction} {state : State} {address value cell : Nat}
    (hpc : state.pc = address) (hvalue : rom[address]? = some (.load value))
    (hfetch : rom[address + 1]? = some (.compute intoD (.operand .a) none))
    (hcell : rom[address + 2]? = some (.load cell))
    (hstore : rom[address + 3]? = some (.compute intoM .d none)) (hlt : cell < memorySize) :
    State.stepTimes rom 4 state =
      ({ state with
          a := cell
          d := BitVec.ofNat 16 value
          pc := address + 4
          memory := state.memory.set cell (BitVec.ofNat 16 value).toNat hlt }, none) := by
  subst hpc
  have hfirst : State.step rom state = ({ state with a := value, pc := state.pc + 1 }, none) := by
    simp only [State.step, hvalue]
  have hsecond : State.step rom { state with a := value, pc := state.pc + 1 } =
      ({ state with a := value, d := BitVec.ofNat 16 value, pc := state.pc + 2 }, none) := by
    simp only [State.step, hfetch]
    rfl
  have hthird : State.step rom
      { state with a := value, d := BitVec.ofNat 16 value, pc := state.pc + 2 } =
      ({ state with a := cell, d := BitVec.ofNat 16 value, pc := state.pc + 3 }, none) := by
    simp only [State.step, hcell]
  have hfourth : State.step rom
      { state with a := cell, d := BitVec.ofNat 16 value, pc := state.pc + 3 } =
      ({ state with
          a := cell
          d := BitVec.ofNat 16 value
          pc := state.pc + 4
          memory := state.memory.set cell (BitVec.ofNat 16 value).toNat hlt }, none) := by
    simp only [State.step, hstore, State.compute]
    rw [if_neg (by decide), if_pos (show intoM.m = true from rfl), dif_pos hlt]
    rfl
  simp only [State.stepTimes, hfirst, hsecond, hthird, hfourth]

/-! ## The start of a program -/

variable {settings : Settings} {sources : List Source} {image : Image}

/-- The program begins with these statements, behind a comment perhaps. -/
theorem startup_split (h : Builds settings sources image) (hbootstrap : settings.bootstrap = true) :
    isWritable settings.stackBase = true ∧ ∃ front rest,
      programCode settings sources =
        front ++ (fetchAddress (.number settings.stackBase) ++ store (.register .sp)) ++ rest ∧
      front.filterMap Statement.line? = [] ∧ codeSize front = 0 := by
  obtain ⟨text, hcompile, -⟩ := h
  rcases startup_cases (compile_eq_ok hcompile).1 with ⟨hnone, -⟩ | ⟨-, hwritable, hstartup, -⟩
  · exact absurd (hbootstrap.symm.trans hnone) (by simp)
  · refine ⟨hwritable, settings.session.annotation "bootstrap",
      callBlock entryFunction 0 settings.session.nextReturn ++
        (programBlocks settings sources).flatten, ?_, ?_, ?_⟩
    · simp only [programCode, hstartup, bootstrapBlock, List.append_assoc]
    · rcases settings.session.annotation_cases "bootstrap" with hcomment | hnone
      · rw [hcomment]
        rfl
      · rw [hnone]
        rfl
    · exact codeSize_annotation_eq_zero settings.session "bootstrap"

/-- The machine puts what the base means into the stack pointer. -/
theorem stackPointer_of_startup (h : Builds settings sources image)
    (hnames : SingleLineNames sources) (hbootstrap : settings.bootstrap = true)
    (hfree : ∀ entry ∈ listing sources, entry.command.declares? ≠ some Register.sp.text)
    {state : State} (hpc : state.pc = 0) :
    ∃ final, State.stepTimes image.rom 4 state = (final, none) ∧
      final.stackPointer = (image.meaning (.number settings.stackBase) : Int) % 2 ^ 16 := by
  obtain ⟨-, front, rest, hcode, -, hsize⟩ := startup_split h hbootstrap
  have hlaid := (h.laysOut hnames).1
  rw [hcode] at hlaid
  obtain ⟨hvalue, hfetch, hcell, hstore, -⟩ :=
    (laysOut_append.mp (laysOut_append.mp hlaid).1).2
  rw [hsize] at hvalue hfetch hcell hstore
  rw [meaning_register_of_free h hnames hfree] at hcell
  refine ⟨_, stepTimes_store hpc hvalue hfetch hcell hstore (by decide), ?_⟩
  simp [State.stackPointer, Register.cell]

/-! ## Numerals with a sign -/

section Negative

variable {value : Int} (hvalue : value < 0)
include hvalue

theorem toList_decimal_of_neg : (decimal value).toList = '-' :: naturalDigits value.natAbs := by
  simp [decimal, hvalue, String.toList_append]

/-- The loader does not take it for a number. -/
theorem isNumberText_decimal_of_neg : isNumberText (decimal value).toList = false := by
  rw [toList_decimal_of_neg hvalue]
  exact isNumberText_of_mem (show isDigitLike '-' = false by decide) (by simp)

theorem lookup_predefined_of_neg : predefined.lookup (decimal value) = none := by
  have hsigns : ∀ entry ∈ predefined, '-' ∉ entry.1.toList := by decide
  rw [List.lookup_eq_none_iff]
  intro entry hentry
  rw [bne_iff_ne]
  intro hname
  apply hsigns entry hentry
  rw [← hname, toList_decimal_of_neg hvalue]
  exact List.mem_cons_self ..

/-- It has no sign of a made-up label. -/
theorem not_mem_decimal_of_neg : '_' ∉ (decimal value).toList ∧ '.' ∉ (decimal value).toList := by
  have hdigit : ∀ c ∈ naturalDigits value.natAbs, c ≠ '_' ∧ c ≠ '.' := by
    intro c hc
    have hcode := isDigit_of_mem_naturalDigits hc
    constructor <;> rintro rfl <;> exact absurd hcode (by decide)
  rw [toList_decimal_of_neg hvalue, List.mem_cons, List.mem_cons]
  constructor
  · rintro (hminus | hmem)
    · exact absurd hminus (by decide)
    · exact (hdigit _ hmem).1 rfl
  · rintro (hminus | hmem)
    · exact absurd hminus (by decide)
    · exact (hdigit _ hmem).2 rfl

end Negative

/-- A program whose first line uses a symbol that is no label gives it the first cell for
variables. -/
theorem symbol?_of_first_line {line : List Char} {rest : List (List Char)} {name : String}
    (hload : Image.ofLines (line :: rest) = .ok image) (huse : symbolOf? line = some name)
    (hlabel : image.labels.lookup name = none) (hname : predefined.lookup name = none) :
    image.symbol? name = some 16 := by
  rcases ofLines_cases (line :: rest) with ⟨other, hok, hloaded⟩ | ⟨_, hfail, -⟩ | ⟨_, hfail, -⟩
  · obtain rfl := Except.ok.inj (hok.symm.trans hload)
    have hvariable : IsVariable (line :: rest) name :=
      ⟨hloaded.labels.lookup_eq_none_iff.mp hlabel, hname⟩
    have hrank : rank (line :: rest) name = 0 := by
      rw [rank_eq huse hvariable (show [] ++ [line] <+: line :: rest by simp)]
      simp [variablesIn, rankIn]
    have hsymbol := hloaded.symbol?_of_means (List.mem_cons_self ..) huse (.allocated hvariable)
    rw [hsymbol, hrank]
  · exact absurd (hfail.symm.trans hload) (by simp)
  · exact absurd (hfail.symm.trans hload) (by simp)

/-- A negative stack base means the first cell for variables, unless a label is spelled like it. -/
theorem meaning_stackBase_of_neg (h : Builds settings sources image)
    (hnames : SingleLineNames sources) (hbootstrap : settings.bootstrap = true)
    (hneg : settings.stackBase < 0)
    (hfree : ∀ entry ∈ listing sources,
      entry.command.declares? ≠ some (decimal settings.stackBase)) :
    image.meaning (.number settings.stackBase) = 16 := by
  have hword : IsWord (Symbol.number settings.stackBase).text := isWord_decimal _
  have hdigits := isNumberText_decimal_of_neg hneg
  obtain ⟨hbar, hdot⟩ := not_mem_decimal_of_neg hneg
  have hlabel := h.lookup_undeclared hnames hbar hdot hfree
  obtain ⟨-, front, rest, hcode, hfront, -⟩ := startup_split h hbootstrap
  obtain ⟨text, hcompile, hload⟩ := h
  rw [load_compiled hcompile hnames, hcode] at hload
  simp only [List.filterMap_append, hfront, List.nil_append, fetchAddress, List.cons_append,
    List.filterMap_cons, Statement.line?, Symbol.operand_of_isWord hword] at hload
  have huse : symbolOf? ('@' :: (decimal settings.stackBase).toList) =
      some (decimal settings.stackBase) := by
    simp [symbolOf?, hdigits]
  have hsymbol := symbol?_of_first_line hload huse hlabel (lookup_predefined_of_neg hneg)
  rw [meaning_of_isWord hword hdigits]
  exact congrArg (Option.getD · 0) hsymbol

/-! ## The stack pointer -/

/-- The stack base that the command line gives is the stack pointer after four steps, modulo the
size of a word, if it is not negative.  A negative one is taken for a symbol: for a label that is
spelled like it, and else for a variable, which has the first cell for variables. -/
theorem stack_base_takes_effect (arguments : Cli.Arguments) (text : String) (base : Int)
    (hgiven : Cli.given? arguments.stackBase = some text)
    (hread : readNotation text = .ok base) (annotate : Bool)
    (hbuilds : Builds ⟨true, annotate, base⟩ sources image) (hnames : SingleLineNames sources)
    (hclean : ∀ entry ∈ listing sources, ∀ name ∈ entry.command.declares?,
      predefined.lookup name = none)
    (state : State) (hpc : state.pc = 0) :
    Cli.stackBaseOf arguments = .ok base ∧
      ∃ final, State.stepTimes image.rom 4 state = (final, none) ∧
        (0 ≤ base → final.stackPointer = base % 2 ^ 16) ∧
        (base < 0 →
          (∀ entry ∈ listing sources, entry.command.declares? ≠ some (decimal base)) →
          final.stackPointer = 16) ∧
        (base < 0 → ∀ j entry, (listing sources)[j]? = some entry →
          entry.command.declares? = some (decimal base) →
          final.stackPointer = (address ⟨true, annotate, base⟩ sources j : Int) % 2 ^ 16) := by
  have hsp : ∀ entry ∈ listing sources, entry.command.declares? ≠ some Register.sp.text := by
    intro entry hentry hdeclares
    exact absurd (hclean entry hentry _ hdeclares) (by decide)
  obtain ⟨final, hsteps, hpointer⟩ := stackPointer_of_startup hbuilds hnames rfl hsp hpc
  obtain ⟨hwritable, -⟩ := startup_split hbuilds rfl
  refine ⟨by rw [Cli.stackBaseOf, hgiven]; exact hread, final, hsteps, ?_, ?_, ?_⟩
  · intro hbase
    rw [hpointer, meaning_number hbase hwritable, Int.toNat_of_nonneg hbase]
  · intro hneg hfree
    rw [hpointer, meaning_stackBase_of_neg hbuilds hnames rfl hneg hfree]
    rfl
  · intro hneg j entry hentry hdeclares
    have hlabel := hbuilds.lookup_declared hnames hentry hdeclares
    have hmeaning : image.meaning (.number base) = address ⟨true, annotate, base⟩ sources j :=
      meaning_label (isWord_decimal base) (isNumberText_decimal_of_neg hneg) hlabel
    rw [hpointer, hmeaning]

/-- A program with nothing but the entry function. -/
def entrySample : List Source :=
  [⟨"Sys", ["function Sys.init 0"]⟩]

/-- A base beyond a word, in hexadecimal. -/
theorem stack_base_takes_effect_sample :
    let arguments : Cli.Arguments :=
      ⟨"Sys.vm", none, some true, false, some " $12_345", false, 0, none⟩
    Cli.stackBaseOf arguments = .ok 74565 ∧
      ∃ image final, Builds ⟨true, true, 74565⟩ entrySample image ∧
        State.stepTimes image.rom 4 .initial = (final, none) ∧ final.stackPointer = 9029 := by
  intro arguments
  have hread : readNotation " $12_345" = .ok 74565 := by decide +kernel
  have hsome : (build? ⟨true, true, 74565⟩ entrySample).isSome = true := by decide +kernel
  obtain ⟨image, himage⟩ := Option.isSome_iff_exists.mp hsome
  have hbuilds := builds_of_build? (by decide) himage
  obtain ⟨hbase, final, hsteps, hpointer, -⟩ := stack_base_takes_effect arguments " $12_345" 74565
    (by decide) hread true hbuilds (by decide) (by decide +kernel) .initial rfl
  exact ⟨hbase, image, final, hbuilds, hsteps, hpointer (by decide)⟩

/-- The command line takes -1 for a stack base, and the stack pointer becomes 16. -/
theorem negative_stack_base_lost :
    (∃ arguments, Cli.Arguments.ofList true ["Sys.vm", "--bootstrap", "--stack-base", "-1"] =
        .ok arguments ∧ Cli.stackBaseOf arguments = .ok (-1)) ∧
      SingleLineNames entrySample ∧
      (∀ entry ∈ listing entrySample, ∀ name ∈ entry.command.declares?,
        predefined.lookup name = none) ∧
      ∃ image final, Builds ⟨true, false, -1⟩ entrySample image ∧
        State.stepTimes image.rom 4 .initial = (final, none) ∧ final.stackPointer = 16 ∧
        final.stackPointer ≠ (-1) % 2 ^ 16 := by
  have harguments : Cli.Arguments.ofList true ["Sys.vm", "--bootstrap", "--stack-base", "-1"] =
      .ok ⟨"Sys.vm", none, some true, false, some "-1", false, 0, none⟩ := by decide +kernel
  have hsome : (build? ⟨true, false, -1⟩ entrySample).isSome = true := by decide +kernel
  have hsp : ∀ entry ∈ listing entrySample,
      entry.command.declares? ≠ some Register.sp.text := by decide +kernel
  have hfree : ∀ entry ∈ listing entrySample,
      entry.command.declares? ≠ some (decimal (-1)) := by decide +kernel
  obtain ⟨image, himage⟩ := Option.isSome_iff_exists.mp hsome
  have hbuilds := builds_of_build? (by decide) himage
  obtain ⟨final, hsteps, hpointer⟩ :=
    @stackPointer_of_startup _ _ _ hbuilds (by decide) rfl hsp .initial rfl
  rw [meaning_stackBase_of_neg hbuilds (by decide) rfl (by decide) hfree] at hpointer
  refine ⟨⟨_, harguments, by decide +kernel⟩, by decide, by decide +kernel, image, final, hbuilds,
    hsteps, hpointer, ?_⟩
  rw [hpointer]
  decide

end HackVm
