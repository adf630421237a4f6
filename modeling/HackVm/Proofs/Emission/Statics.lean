import HackVm.Proofs.Assembly.Variables
import HackVm.Proofs.Emission.Meaning

/-!
# Static variables

A static variable is written as the name of its source, a dot and its index, and becomes a variable
of the loaded program.  Two uses of static variables are uses of the same cell exactly when they
stand in sources of the same name and have the same index, and no static variable shares its cell
with a register (`static_cells_separated`).

The naming is injective because the digits after the last dot are the index, so a source name may
hold dots and digits itself.  The cells are different because allocation is injective.  What is
left is that the loader takes the text for a variable at all: it has a dot, so it is neither a
numeral, nor predefined, nor a label of a comparison, and other labels are excluded by assumption.
-/

namespace HackVm

open Emit Hack Text

/-- A command that uses a static variable: the index of the variable, and the number of
instructions before the one that loads its address. -/
def Command.staticUse? : Command → Option (Int × Nat)
  | .push word index => if word = Segment.static.word then some (index, 0) else none
  | .pop word index => if word = Segment.static.word then some (index, codeSize popD) else none
  | _ => none

/-- Labels inside comparisons. -/
def Emit.Symbol.isComparison : Symbol → Bool
  | .comparison _ _ _ => true
  | _ => false

/-- No static variable of the program is spelled like a name that it declares or like the return of
a call. -/
def UnlabelledStatics (settings : Settings) (sources : List Source) : Prop :=
  ∀ entry ∈ listing sources, ∀ use ∈ entry.command.staticUse?,
    ∀ symbol ∈ declaredIn (programCode settings sources), symbol.isComparison = false →
      symbol.text ≠ (Symbol.static entry.source use.1).text

instance (settings : Settings) (sources : List Source) :
    Decidable (UnlabelledStatics settings sources) :=
  inferInstanceAs (Decidable (∀ entry ∈ listing sources, ∀ use ∈ entry.command.staticUse?,
    ∀ symbol ∈ declaredIn (programCode settings sources), symbol.isComparison = false →
      symbol.text ≠ (Symbol.static entry.source use.1).text))

variable {settings : Settings} {sources : List Source} {image : Image}

/-! ## The instruction of a use -/

private theorem eq_static_of_locates {session : Session} {source : String} {index : Int}
    {location : Location} (hsource : session.source = some source)
    (h : session.Locates .static index location) : location = .direct (.static source index) := by
  cases h with
  | static _ hfound _ => rw [Option.some.inj (hsource.symm.trans hfound)]

theorem Command.staticUse?_cases {command : Command} {index : Int} {offset : Nat}
    (huse : command.staticUse? = some (index, offset)) :
    (command = .push Segment.static.word index ∧ offset = 0) ∨
      (command = .pop Segment.static.word index ∧ offset = codeSize popD) := by
  cases command with
  | push word number =>
      dsimp only [Command.staticUse?] at huse
      split at huse
      · next hword =>
        obtain ⟨rfl, rfl⟩ := Prod.mk.inj (Option.some.inj huse)
        exact Or.inl ⟨by rw [hword], rfl⟩
      · exact absurd huse (by simp)
  | pop word number =>
      dsimp only [Command.staticUse?] at huse
      split at huse
      · next hword =>
        obtain ⟨rfl, rfl⟩ := Prod.mk.inj (Option.some.inj huse)
        exact Or.inr ⟨by rw [hword], rfl⟩
      · exact absurd huse (by simp)
  | _ => exact absurd huse (by simp [Command.staticUse?])

/-- The instruction that loads the address of a static variable stands where it is expected. -/
theorem Builds.rom_static (h : Builds settings sources image) (hnames : SingleLineNames sources)
    {i : Nat} {entry : Entry} (hentry : (listing sources)[i]? = some entry) {index : Int}
    {offset : Nat} (huse : entry.command.staticUse? = some (index, offset)) :
    image.rom[address settings sources i + offset]? =
        some (.load (image.meaning (.static entry.source index))) ∧
      .load (.static entry.source index) ∈ programCode settings sources := by
  obtain ⟨session, next, body, hsource, hblock, hlaid, -, hcode⟩ := h.block hnames hentry
  rcases Command.staticUse?_cases huse with ⟨hcommand, rfl⟩ | ⟨hcommand, rfl⟩
  · rw [hcommand] at hblock
    cases block_eq_ok_iff.mp hblock with
    | push hsegment hlocates =>
        obtain rfl := Option.some.inj ((Segment.ofWord?_word .static).symm.trans hsegment)
        obtain rfl := eq_static_of_locates hsource hlocates
        exact ⟨hlaid.1, (hcode _ (List.mem_cons_self ..)).1⟩
  · rw [hcommand] at hblock
    cases block_eq_ok_iff.mp hblock with
    | pop hsegment hlocates hbody =>
        obtain rfl := Option.some.inj ((Segment.ofWord?_word .static).symm.trans hsegment)
        obtain rfl := eq_static_of_locates hsource hlocates
        obtain rfl := Option.some.inj hbody
        -- The load comes after the instructions that take the word off the stack.
        have hstore := (laysOut_append.mp hlaid).2
        exact ⟨hstore.1, (hcode _ (List.mem_append_right _ (List.mem_cons_self ..))).1⟩

private theorem staticUse?_nonneg {command : Command} (hplain : command.IsPlain) {index : Int}
    {offset : Nat} (huse : command.staticUse? = some (index, offset)) : 0 ≤ index := by
  rcases Command.staticUse?_cases huse with ⟨rfl, -⟩ | ⟨rfl, -⟩
  · exact hplain.number index rfl
  · exact hplain.number index rfl

/-! ## The cell of a variable -/

private theorem static_injective {first second : String} {m n : Int} (hm : 0 ≤ m) (hn : 0 ≤ n)
    (h : (Symbol.static first m).text = (Symbol.static second n).text) :
    first = second ∧ m = n := by
  have hlist := congrArg String.toList h
  rw [toList_static hm, toList_static hn] at hlist
  obtain ⟨hsource, hindex⟩ := append_natural_inj (by decide) hlist
  refine ⟨String.toList_injective hsource, ?_⟩
  omega

private theorem lookup_label_static (h : Builds settings sources image)
    (hnames : SingleLineNames sources) (hstatics : UnlabelledStatics settings sources)
    {entry : Entry} (hentry : entry ∈ listing sources) {index : Int} {offset : Nat}
    (huse : entry.command.staticUse? = some (index, offset)) (hindex : 0 ≤ index) :
    image.labels.lookup (Symbol.static entry.source index).text = none := by
  cases hlookup : image.labels.lookup (Symbol.static entry.source index).text with
  | none => rfl
  | some place =>
      exfalso
      obtain ⟨symbol, hdeclare, htext⟩ := h.exists_declare hnames hlookup
      have hother := hstatics entry hentry _ huse symbol (mem_declaredIn.mpr hdeclare)
      cases symbol with
      | comparison place operator serial =>
          apply dot_not_mem_comparison place operator serial
          rw [htext, toList_static hindex]
          simp
      | _ => exact hother rfl htext

/-- A static variable is a variable of the image, and its use means its cell. -/
private theorem lookup_allocated_static (h : Builds settings sources image)
    (hnames : SingleLineNames sources) (hmarks : UnmarkedNames sources)
    (hstatics : UnlabelledStatics settings sources) {i : Nat} {entry : Entry}
    (hentry : (listing sources)[i]? = some entry) {index : Int} {offset : Nat}
    (huse : entry.command.staticUse? = some (index, offset)) :
    image.allocated.lookup (Symbol.static entry.source index).text =
      some (image.meaning (.static entry.source index)) := by
  have hmem := List.mem_of_getElem? hentry
  obtain ⟨hplain, source, hsource, hname⟩ := isPlain_of_mem_listing hmem
  have hindex := staticUse?_nonneg hplain huse
  have hmark : ¬ commentMark <:+: entry.source.toList := by
    rw [← hname]
    exact hmarks source hsource
  have hoperand := operand_static hmark hindex
  have hdot : '.' ∈ (Symbol.static entry.source index).text.toList := by
    rw [toList_static hindex]
    simp
  -- The load is a line of the text, so the loader has given its symbol an address.
  have hsome : (image.symbol? (Symbol.static entry.source index).text).isSome = true := by
    have hload := (h.rom_static hnames hentry huse).2
    have hlines := fun statement hstatement => (h.isPlain hnames statement hstatement).isLine
    obtain ⟨text, hcompile, hloaded⟩ := h
    obtain ⟨-, rfl, -⟩ := compile_eq_ok hcompile
    have hline : '@' :: (Symbol.static entry.source index).operand ∈
        significantLines (assembly (programCode settings sources)) := by
      rw [significantLines_assembly hlines]
      exact List.mem_filterMap.mpr ⟨_, hload, rfl⟩
    have hfound := symbol?_isSome_of_load hloaded hline
      (by rw [hoperand]; exact isNumberText_of_dot hdot)
    rwa [hoperand, String.ofList_toList] at hfound
  have hsymbol : image.symbol? (Symbol.static entry.source index).text =
      image.allocated.lookup (Symbol.static entry.source index).text := by
    rw [Image.symbol?, lookup_label_static h hnames hstatics hmem huse hindex,
      lookup_predefined (Or.inr hdot)]
    rfl
  rw [hsymbol] at hsome
  rw [meaning_static hmark hindex, hsymbol]
  exact (Option.some_get hsome).symm.trans (by rw [Option.get_eq_getD])

/-- Two uses of static variables load the same cell exactly when they stand in sources of the same
name and have the same index, and never a cell among the registers. -/
theorem static_cells_separated (h : Builds settings sources image)
    (hnames : SingleLineNames sources) (hmarks : UnmarkedNames sources)
    (hstatics : UnlabelledStatics settings sources) {i j : Nat} {first second : Entry}
    (hfirst : (listing sources)[i]? = some first) (hsecond : (listing sources)[j]? = some second)
    {m n : Int} {firstOffset secondOffset : Nat}
    (hm : first.command.staticUse? = some (m, firstOffset))
    (hn : second.command.staticUse? = some (n, secondOffset)) :
    ∃ cell other : Nat,
      image.rom[address settings sources i + firstOffset]? = some (.load cell) ∧
      image.rom[address settings sources j + secondOffset]? = some (.load other) ∧
      (cell = other ↔ first.source = second.source ∧ m = n) ∧ 16 ≤ cell ∧ 16 ≤ other := by
  have hcell := lookup_allocated_static h hnames hmarks hstatics hfirst hm
  have hother := lookup_allocated_static h hnames hmarks hstatics hsecond hn
  have hallocation : IsAllocation image.allocated := by
    obtain ⟨text, -, hload⟩ := h
    exact isAllocation_of_load hload
  refine ⟨_, _, (h.rom_static hnames hfirst hm).1, (h.rom_static hnames hsecond hn).1, ?_,
    hallocation.variableBase_le hcell, hallocation.variableBase_le hother⟩
  constructor
  · intro hsame
    rw [← hsame] at hother
    exact static_injective
      (staticUse?_nonneg (isPlain_of_mem_listing (List.mem_of_getElem? hfirst)).1 hm)
      (staticUse?_nonneg (isPlain_of_mem_listing (List.mem_of_getElem? hsecond)).1 hn)
      (hallocation.injective hcell hother)
  · rintro ⟨hsource, hindex⟩
    rw [hsource, hindex]

/-- Two sources whose static variables have similar texts. -/
def staticSample : List Source :=
  [⟨"A", ["push static 10", "pop static 1"]⟩, ⟨"A.1", ["pop static 0"]⟩]

theorem static_cells_separated_sample :
    ∃ image, Builds ⟨false, false, 256⟩ staticSample image ∧
      ∃ cell other : Nat, image.rom[0]? = some (.load cell) ∧
        image.rom[15]? = some (.load other) ∧
        (cell = other ↔ "A" = "A.1" ∧ (10 : Int) = 0) ∧ 16 ≤ cell ∧ 16 ≤ other := by
  have hsome : (build? ⟨false, false, 256⟩ staticSample).isSome = true := by decide +kernel
  have hstart : address ⟨false, false, 256⟩ staticSample 0 = 0 := by decide +kernel
  have hlast : address ⟨false, false, 256⟩ staticSample 2 = 12 := by decide +kernel
  have hfirst : (listing staticSample)[0]? = some ⟨"A", .push "static" 10⟩ := by decide +kernel
  have hsecond : (listing staticSample)[2]? = some ⟨"A.1", .pop "static" 0⟩ := by decide +kernel
  obtain ⟨image, himage⟩ := Option.isSome_iff_exists.mp hsome
  have hbuilds := builds_of_build? (by decide) himage
  have hseparated := static_cells_separated hbuilds (by decide +kernel) (by decide +kernel)
    (by decide +kernel) hfirst hsecond rfl rfl
  rw [hstart, hlast] at hseparated
  exact ⟨image, hbuilds, hseparated⟩

end HackVm
