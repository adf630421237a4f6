import HackVm.Proofs.Assembly.Declarations
import HackVm.Proofs.Assembly.Instructions
import HackVm.Proofs.Assembly.Variables
import Mathlib.Data.Finset.Card
import Mathlib.Data.Finset.Dedup

/-!
# What the loader makes of a text

A text is loaded in two passes over its significant lines, with tables of symbols that grow on the
way.  Here it is said without passes what comes out, for every text.

* A label means the number of instructions before its declaration (`DeclaredAt`), wherever it is
  used, also if it is declared later or has the name of a register.
* Any other symbol means the register of that name, and else a variable.  The variables have the
  cells from 16 on, by the number of variables that are used before their own first use (`rank`).
* A text fails to load at the first label that is declared again, whatever the instructions are, and
  else at the first instruction that cannot be read (`FirstRepeat`, `FirstUnreadable`).

Each pass keeps an invariant about the lines behind it.  After the first pass over `front` the table
holds the labels of `front` (`Collected`), and after the second pass over `front` the variables used
in `front` have their cells (`Allocates`).  A place in a text is given by what stands before it:
`front ++ [line] <+: lines`.
-/

namespace HackVm.Hack

open Emit Text

/-! ## What symbols mean -/

/-- The symbol is neither a label of the program nor predefined. -/
def IsVariable (program : List (List Char)) (name : String) : Prop :=
  ¬ Declared program name ∧ predefined.lookup name = none

instance (program : List (List Char)) (name : String) : Decidable (IsVariable program name) :=
  inferInstanceAs (Decidable (_ ∧ _))

/-- The variables of the program that the lines use, in the order of use and with repeats. -/
def variablesIn (program lines : List (List Char)) : List String :=
  (lines.filterMap symbolOf?).filter (IsVariable program)

/-- The number of different names before the first occurrence of a name. -/
def rankIn (names : List String) (name : String) : Nat :=
  (names.takeWhile (· ≠ name)).toFinset.card

/-- The number of variables that are used before a variable is. -/
def rank (program : List (List Char)) (name : String) : Nat :=
  rankIn (variablesIn program program) name

/-- The address that a symbol means in a program: that of its label if it is declared anywhere, and
else that of the register of its name, and else that of a variable. -/
inductive Means (program : List (List Char)) (name : String) : Nat → Prop
  | label {address : Nat} (hdeclared : DeclaredAt program name address) :
      Means program name address
  | predefined {address : Nat} (hlabel : ¬ Declared program name)
      (hname : predefined.lookup name = some address) : Means program name address
  | allocated (hvariable : IsVariable program name) : Means program name (16 + rank program name)

/-- The instruction that a line becomes in a program. -/
inductive Assembled (program : List (List Char)) : List Char → Instruction → Prop
  | number {operand : List Char} {value : Nat} (hdigits : isNumberText operand = true)
      (hvalue : readInt 10 (String.ofList operand) = .ok (value : Int)) :
      Assembled program ('@' :: operand) (.load value)
  | symbol {line : List Char} {name : String} {address : Nat} (huse : symbolOf? line = some name)
      (hmeans : Means program name address) : Assembled program line (.load address)
  | compute {line : List Char} {instruction : Instruction} (hcomputes : Computes line instruction) :
      Assembled program line instruction

/-- The first of the lines that is no instruction, and why. -/
def FirstUnreadable (lines : List (List Char)) (error : LoadError) : Prop :=
  ∃ front line, front ++ [line] <+: lines ∧ Unreadable line error ∧
    ∀ earlier ∈ front, ∀ other, ¬ Unreadable earlier other

/-! ## The second pass -/

theorem variablesIn_append (program first second : List (List Char)) :
    variablesIn program (first ++ second) =
      variablesIn program first ++ variablesIn program second := by
  rw [variablesIn, List.filterMap_append, List.filter_append, variablesIn, variablesIn]

theorem variablesIn_concat_of_not {program front : List (List Char)} {line : List Char}
    (hnone : ∀ name, symbolOf? line = some name → ¬ IsVariable program name) :
    variablesIn program (front ++ [line]) = variablesIn program front := by
  rw [variablesIn_append]
  cases huse : symbolOf? line with
  | none => simp [variablesIn, huse]
  | some name => simp [variablesIn, huse, hnone name huse]

theorem variablesIn_concat {program : List (List Char)} {line : List Char} {name : String}
    (huse : symbolOf? line = some name) (hvariable : IsVariable program name)
    (front : List (List Char)) :
    variablesIn program (front ++ [line]) = variablesIn program front ++ [name] := by
  rw [variablesIn_append]
  simp [variablesIn, huse, hvariable]

theorem isVariable_of_mem {program lines : List (List Char)} {name : String}
    (h : name ∈ variablesIn program lines) : IsVariable program name := by
  simpa using (List.mem_filter.mp h).2

/-- The rank of a name is the number of different names before its first occurrence. -/
theorem rankIn_append_cons {front : List String} {name : String} (h : name ∉ front)
    (later : List String) : rankIn (front ++ name :: later) name = front.toFinset.card := by
  have hfront : (front ++ name :: later).takeWhile (· ≠ name) = front := by
    rw [List.takeWhile_append_of_pos, List.takeWhile_cons]
    · simp
    · intro other hother
      have hne : other ≠ name := fun heq => h (heq ▸ hother)
      simpa using hne
  rw [rankIn, hfront]

/-- What comes later does not change a rank. -/
theorem rankIn_append_of_mem {names : List String} {name : String} (h : name ∈ names)
    (later : List String) : rankIn (names ++ later) name = rankIn names name := by
  obtain ⟨front, back, rfl, hfront⟩ := List.eq_append_cons_of_mem h
  rw [List.append_assoc, List.cons_append, rankIn_append_cons hfront, rankIn_append_cons hfront]

/-- The variables that the lines use have their cells, and there are no others. -/
structure Allocates (program lines : List (List Char)) (allocated : Symbols) : Prop where
  lookup_of_mem : ∀ name ∈ variablesIn program lines,
    allocated.lookup name = some (16 + rankIn (variablesIn program lines) name)
  lookup_of_not_mem : ∀ name, name ∉ variablesIn program lines → allocated.lookup name = none
  length_eq : allocated.length = (variablesIn program lines).toFinset.card

theorem allocates_nil (program : List (List Char)) : Allocates program [] [] :=
  ⟨fun _ h => absurd h (by simp [variablesIn]), fun _ _ => rfl, rfl⟩

section Resolve

variable {program front : List (List Char)} {labels allocated : Symbols} {line : List Char}
  {name : String}

/-- A line that uses no variable allocates nothing. -/
theorem Allocates.kept (h : Allocates program front allocated)
    (hnone : ∀ name, symbolOf? line = some name → ¬ IsVariable program name) :
    Allocates program (front ++ [line]) allocated := by
  have hnames : variablesIn program (front ++ [line]) = variablesIn program front :=
    variablesIn_concat_of_not hnone
  constructor
  · rw [hnames]
    exact h.lookup_of_mem
  · rw [hnames]
    exact h.lookup_of_not_mem
  · rw [hnames]
    exact h.length_eq

/-- A variable that was used before keeps its cell. -/
theorem Allocates.again (h : Allocates program front allocated)
    (huse : symbolOf? line = some name) (hmem : name ∈ variablesIn program front) :
    Allocates program (front ++ [line]) allocated := by
  have hnames := variablesIn_concat huse (isVariable_of_mem hmem) front
  constructor
  · intro other hother
    have hbefore : other ∈ variablesIn program front := by
      rw [hnames, List.mem_append, List.mem_singleton] at hother
      rcases hother with hother | rfl
      · exact hother
      · exact hmem
    rw [hnames, rankIn_append_of_mem hbefore]
    exact h.lookup_of_mem other hbefore
  · intro other hother
    rw [hnames] at hother
    exact h.lookup_of_not_mem other fun hbefore => hother (List.mem_append_left _ hbefore)
  · rw [hnames, h.length_eq]
    congr 1
    ext other
    simp only [List.mem_toFinset, List.mem_append, List.mem_singleton]
    exact ⟨.inl, fun hother => hother.elim id fun heq => heq ▸ hmem⟩

/-- A new variable gets the next cell. -/
theorem Allocates.fresh (h : Allocates program front allocated)
    (huse : symbolOf? line = some name) (hvariable : IsVariable program name)
    (hnew : name ∉ variablesIn program front) :
    Allocates program (front ++ [line])
      (allocated ++ [(name, variableBase + allocated.length)]) := by
  have hnames := variablesIn_concat huse hvariable front
  constructor
  · intro other hother
    rw [hnames] at hother ⊢
    by_cases hbefore : other ∈ variablesIn program front
    · rw [rankIn_append_of_mem hbefore, List.lookup_append, h.lookup_of_mem other hbefore]
      rfl
    · obtain rfl : other = name := by simpa [hbefore] using hother
      rw [rankIn_append_cons hbefore, ← h.length_eq, List.lookup_append,
        h.lookup_of_not_mem other hbefore]
      simp [variableBase]
  · intro other hother
    rw [hnames, List.mem_append, List.mem_singleton, not_or] at hother
    rw [List.lookup_append, h.lookup_of_not_mem other hother.1]
    simp [List.lookup_cons, beq_eq_false_iff_ne.mpr hother.2]
  · rw [hnames, List.length_append, h.length_eq]
    simp [List.toFinset_append, hnew]

/-- The rank of a variable is decided when it is used. -/
theorem rank_eq (huse : symbolOf? line = some name) (hvariable : IsVariable program name)
    (hplace : front ++ [line] <+: program) :
    rank program name = rankIn (variablesIn program front ++ [name]) name := by
  obtain ⟨rest, hrest⟩ := hplace
  have hmem : name ∈ variablesIn program front ++ [name] := by simp
  calc rank program name
      = rankIn (variablesIn program (front ++ [line] ++ rest)) name := by rw [hrest, rank]
    _ = rankIn (variablesIn program front ++ [name] ++ variablesIn program rest) name := by
        rw [variablesIn_append, variablesIn_concat huse hvariable]
    _ = rankIn (variablesIn program front ++ [name]) name := rankIn_append_of_mem hmem _

/-- A symbol is resolved to what it means, and the variables stay in order. -/
theorem resolve_step (hlabels : Collected program labels) (h : Allocates program front allocated)
    (huse : symbolOf? line = some name) (hplace : front ++ [line] <+: program) :
    Means program name (resolve labels allocated name).1 ∧
      Allocates program (front ++ [line]) (resolve labels allocated name).2 := by
  by_cases hvariable : IsVariable program name
  · have hlabel := hlabels.lookup_eq_none_iff.mpr hvariable.1
    have hmeans := Means.allocated hvariable
    -- Its rank in the program is its rank among what was used up to here.
    rw [rank_eq huse hvariable hplace] at hmeans
    by_cases hmem : name ∈ variablesIn program front
    · have hfound := h.lookup_of_mem name hmem
      rw [rankIn_append_of_mem hmem] at hmeans
      rw [resolve, hlabel, hvariable.2, hfound]
      exact ⟨hmeans, h.again huse hmem⟩
    · have hnone := h.lookup_of_not_mem name hmem
      rw [rankIn_append_cons hmem, ← h.length_eq] at hmeans
      rw [resolve, hlabel, hvariable.2, hnone]
      exact ⟨hmeans, h.fresh huse hvariable hmem⟩
  · have hkept : Allocates program (front ++ [line]) allocated := by
      apply h.kept
      intro other hother
      rwa [Option.some.inj (hother.symm.trans huse)]
    by_cases hdeclared : Declared program name
    · obtain ⟨address, haddress⟩ := declared_iff_exists_declaredAt.mp hdeclared
      rw [resolve, (hlabels.lookup name address).mpr haddress]
      exact ⟨.label haddress, hkept⟩
    · have hregister : predefined.lookup name ≠ none := fun hnone => hvariable ⟨hdeclared, hnone⟩
      obtain ⟨address, haddress⟩ := Option.ne_none_iff_exists'.mp hregister
      rw [resolve, hlabels.lookup_eq_none_iff.mpr hdeclared, haddress]
      exact ⟨.predefined hdeclared haddress, hkept⟩

/-- One line becomes its instruction, or something is wrong with it. -/
theorem readInstruction_cases (hlabels : Collected program labels)
    (h : Allocates program front allocated) (hplace : front ++ [line] <+: program) :
    (∃ instruction after, readInstruction labels allocated line = .ok (instruction, after) ∧
      Assembled program line instruction ∧ Allocates program (front ++ [line]) after) ∨
    ∃ error, Unreadable line error := by
  have hkept : symbolOf? line = none → Allocates program (front ++ [line]) allocated := by
    intro hnone
    apply h.kept
    intro name hname
    exact absurd (hnone.symm.trans hname) (by simp)
  rcases line_cases line with ⟨operand, rfl, hdigits⟩ | ⟨name, huse⟩ | hload
  · cases hvalue : readInt 10 (String.ofList operand) with
    | error error => exact .inr ⟨_, .number hdigits hvalue⟩
    | ok value =>
        obtain ⟨value, rfl⟩ := Int.eq_ofNat_of_zero_le (readInt_nonneg hdigits hvalue)
        refine .inl ⟨.load value, allocated, ?_, .number hdigits hvalue, ?_⟩
        · simp only [readInstruction, hdigits, if_true, hvalue, Int.toNat_natCast]
        · exact hkept (by simp [symbolOf?, hdigits])
  · obtain ⟨hmeans, hnext⟩ := resolve_step hlabels h huse hplace
    exact .inl ⟨_, _, readInstruction_symbol huse, .symbol huse hmeans, hnext⟩
  · rcases readCompute_cases hload with ⟨instruction, hread, hcomputes⟩ | hwrong
    · refine .inl ⟨instruction, allocated, ?_, .compute hcomputes, hkept (symbolOf?_eq_none hload)⟩
      rw [readInstruction_computing hload, hread]
      rfl
    · exact .inr hwrong

end Resolve

theorem FirstUnreadable.cons {line : List Char} {lines : List (List Char)} {error : LoadError}
    (hline : ∀ other, ¬ Unreadable line other) (h : FirstUnreadable lines error) :
    FirstUnreadable (line :: lines) error := by
  obtain ⟨front, bad, hplace, hbad, hfront⟩ := h
  refine ⟨line :: front, bad, ?_, hbad, ?_⟩
  · rw [List.cons_append, List.cons_prefix_cons]
    exact ⟨rfl, hplace⟩
  · exact List.forall_mem_cons.mpr ⟨hline, hfront⟩

theorem FirstUnreadable.unique {lines : List (List Char)} {error other : LoadError}
    (h : FirstUnreadable lines error) (h' : FirstUnreadable lines other) : error = other := by
  obtain ⟨front, line, hplace, hline, hfront⟩ := h
  obtain ⟨front', line', hplace', hline', hfront'⟩ := h'
  rcases place_cases hplace hplace' with hbefore | ⟨rfl, rfl⟩ | hafter
  · exact absurd hline (hfront' line (hbefore.subset (by simp)) error)
  · have hread : readInstruction [] [] line = .error error := readInstruction_of_unreadable hline
    rw [readInstruction_of_unreadable hline'] at hread
    exact (Except.error.inj hread).symm
  · exact absurd hline' (hfront line' (hafter.subset (by simp)) other)

/-- The second pass assembles all instructions, or ends at the first line that is none. -/
theorem assemble_cases {program front rest : List (List Char)} {labels allocated : Symbols}
    (hlabels : Collected program labels) (hprogram : front ++ rest = program)
    (h : Allocates program front allocated) (rom : Array Instruction) :
    (∃ result final added, assemble labels allocated rom rest = .ok (result, final) ∧
      Allocates program program final ∧ result.toList = rom.toList ++ added ∧
      List.Forall₂ (Assembled program) (instructionLines rest) added ∧
      ∀ line ∈ instructionLines rest, ∀ error, ¬ Unreadable line error) ∨
    ∃ error, assemble labels allocated rom rest = .error error ∧
      FirstUnreadable (instructionLines rest) error := by
  induction rest generalizing front allocated rom with
  | nil =>
      rw [List.append_nil] at hprogram
      subst hprogram
      refine .inl ⟨rom, allocated, [], rfl, h, by simp, .nil, ?_⟩
      intro line hline
      exact absurd hline (by simp [instructionLines])
  | cons line rest ih =>
      have hsplit : front ++ [line] ++ rest = program := by simpa using hprogram
      have hplace : front ++ [line] <+: program := ⟨rest, hsplit⟩
      cases hline : labelOf? line with
      | some name =>
          have hnone : symbolOf? line = none :=
            symbolOf?_eq_none (by simp [head?_of_labelOf? hline])
          have hkept : Allocates program (front ++ [line]) allocated := by
            apply h.kept
            intro symbol huse
            exact absurd (hnone.symm.trans huse) (by simp)
          have hskip : assemble labels allocated rom (line :: rest) =
              assemble labels allocated rom rest := by
            rw [assemble, hline, Option.isSome_some, if_pos rfl]
          rw [hskip, instructionLines_cons_label hline]
          exact ih hsplit hkept rom
      | none =>
          rw [instructionLines_cons_code hline]
          rcases readInstruction_cases hlabels h hplace with
            ⟨instruction, after, hread, hassembled, hnext⟩ | ⟨error, hwrong⟩
          · have hgood : ∀ error, ¬ Unreadable line error := by
              intro error hwrong
              exact absurd (hread.symm.trans (readInstruction_of_unreadable hwrong)) (by simp)
            have hpush : assemble labels allocated rom (line :: rest) =
                assemble labels after (rom.push instruction) rest := by
              rw [assemble, hline, Option.isSome_none, if_neg (by simp), hread]
            rw [hpush]
            rcases ih hsplit hnext (rom.push instruction) with
              ⟨result, final, added, hok, hfinal, hresult, hrest, hreadable⟩ |
              ⟨error, hfail, hfirst⟩
            · refine .inl ⟨result, final, instruction :: added, hok, hfinal, ?_,
                .cons hassembled hrest, List.forall_mem_cons.mpr ⟨hgood, hreadable⟩⟩
              rw [hresult, Array.toList_push, List.append_assoc, List.singleton_append]
            · exact .inr ⟨error, hfail, hfirst.cons hgood⟩
          · refine .inr ⟨error, ?_, [], line, ?_, hwrong, by simp⟩
            · rw [assemble, hline, Option.isSome_none, if_neg (by simp),
                readInstruction_of_unreadable hwrong]
            · simp

/-! ## Both passes together -/

/-- Both passes went through, and this is what they left. -/
structure Loaded (program : List (List Char)) (image : Image) : Prop where
  labels : Collected program image.labels
  allocated : Allocates program program image.allocated
  rom : List.Forall₂ (Assembled program) (instructionLines program) image.rom.toList
  readable : ∀ line ∈ instructionLines program, ∀ error, ¬ Unreadable line error

/-- Both passes go through, or the first ends at a label that is declared again, or else the second
at a line that is no instruction. -/
theorem ofLines_cases (lines : List (List Char)) :
    (∃ image, Image.ofLines lines = .ok image ∧ Loaded lines image) ∨
    (∃ name, Image.ofLines lines = .error (.duplicateLabel name) ∧ FirstRepeat lines name) ∨
    ∃ error, Image.ofLines lines = .error error ∧ (∀ name, ¬ DeclaredTwice lines name) ∧
      FirstUnreadable (instructionLines lines) error := by
  unfold Image.ofLines
  rcases collectLabels_cases collected_nil lines with ⟨labels, hcollect, hlabels⟩ |
    ⟨name, hcollect, hrepeat⟩
  · rw [List.nil_append] at hlabels
    change collectLabels 0 [] lines = _ at hcollect
    rw [hcollect]
    rcases assemble_cases hlabels (List.nil_append lines) (allocates_nil lines) #[] with
      ⟨result, final, added, hassemble, hfinal, hresult, hrom, hreadable⟩ |
      ⟨error, hassemble, hfirst⟩
    · have hadded : result.toList = added := by simpa using hresult
      refine .inl ⟨⟨result, labels, final⟩, ?_, hlabels, hfinal, ?_, hreadable⟩
      · simp [bind, Except.bind, pure, Except.pure, hassemble]
      · rw [hadded]
        exact hrom
    · refine .inr (.inr ⟨error, ?_, hlabels.once, hfirst⟩)
      simp [bind, Except.bind, hassemble]
  · change collectLabels 0 [] lines = _ at hcollect
    rw [hcollect]
    exact .inr (.inl ⟨name, rfl, hrepeat⟩)

theorem FirstUnreadable.exists_mem {lines : List (List Char)} {error : LoadError}
    (h : FirstUnreadable lines error) : ∃ line ∈ lines, Unreadable line error := by
  obtain ⟨front, line, hplace, hline, -⟩ := h
  exact ⟨line, hplace.subset (by simp), hline⟩

/-- What a symbol means in a program is its address in the image. -/
theorem Loaded.symbol?_of_means {program : List (List Char)} {image : Image}
    (h : Loaded program image) {line : List Char} {name : String} {address : Nat}
    (hline : line ∈ program) (huse : symbolOf? line = some name)
    (hmeans : Means program name address) : image.symbol? name = some address := by
  cases hmeans with
  | label hdeclared =>
      rw [Image.symbol?, (h.labels.lookup name address).mpr hdeclared, Option.some_or]
  | predefined hlabel hname =>
      rw [Image.symbol?, h.labels.lookup_eq_none_iff.mpr hlabel, hname]
      rfl
  | allocated hvariable =>
      have hmem : name ∈ variablesIn program program :=
        List.mem_filter.mpr ⟨List.mem_filterMap.mpr ⟨line, hline, huse⟩, by simpa using hvariable⟩
      rw [Image.symbol?, h.labels.lookup_eq_none_iff.mpr hvariable.1, hvariable.2,
        h.allocated.lookup_of_mem name hmem]
      rfl

/-- A line that uses a symbol loads the address of the symbol. -/
theorem Loaded.rom_symbol {program : List (List Char)} {image : Image} (h : Loaded program image)
    {i : Nat} {line : List Char} {name : String}
    (hline : (instructionLines program)[i]? = some line) (huse : symbolOf? line = some name) :
    ∃ address, image.rom[i]? = some (.load address) ∧ image.symbol? name = some address := by
  obtain ⟨hlength, hall⟩ := List.forall₂_iff_get.mp h.rom
  obtain ⟨hi, hget⟩ := List.getElem?_eq_some_iff.mp hline
  have hrom : i < image.rom.toList.length := hlength ▸ hi
  have hassembled := hall i hi hrom
  rw [List.get_eq_getElem, List.get_eq_getElem, hget] at hassembled
  rw [← Array.getElem?_toList, List.getElem?_eq_getElem hrom]
  -- Of the three kinds of instruction only one is for a line that uses a symbol.
  generalize image.rom.toList[i] = instruction at hassembled
  cases hassembled with
  | number hdigits => exact absurd huse (by simp [symbolOf?, hdigits])
  | symbol hother hmeans =>
      obtain rfl := Option.some.inj (hother.symm.trans huse)
      have hmem : line ∈ program := List.mem_of_mem_filter (List.mem_of_getElem? hline)
      exact ⟨_, rfl, h.symbol?_of_means hmem huse hmeans⟩
  | compute hcomputes =>
      obtain ⟨hload⟩ := hcomputes
      exact absurd ((symbolOf?_eq_none hload).symm.trans huse) (by simp)

/-- The image of a program: an instruction for every line that declares no label, in order, and the
labels with the numbers of instructions before them.  All uses of a symbol load the same address,
and uses of different variables load different ones. -/
structure Image.Resolves (image : Image) (program : List (List Char)) : Prop where
  rom : List.Forall₂ (Assembled program) (instructionLines program) image.rom.toList
  labels : ∀ name address,
    image.labels.lookup name = some address ↔ DeclaredAt program name address
  agree : ∀ {i j : Nat} {line other name}, (instructionLines program)[i]? = some line →
    (instructionLines program)[j]? = some other → symbolOf? line = some name →
    symbolOf? other = some name → image.rom[i]? = image.rom[j]?
  apart : ∀ {i j : Nat} {line other first second}, (instructionLines program)[i]? = some line →
    (instructionLines program)[j]? = some other → symbolOf? line = some first →
    symbolOf? other = some second → IsVariable program first → IsVariable program second →
    image.rom[i]? = image.rom[j]? → first = second

theorem Loaded.resolves {program : List (List Char)} {image : Image} (h : Loaded program image)
    (hallocated : IsAllocation image.allocated) : image.Resolves program := by
  refine ⟨h.rom, h.labels.lookup, ?_, ?_⟩
  · intro i j line other name hline hother huse huse'
    obtain ⟨address, hi, hmeans⟩ := h.rom_symbol hline huse
    obtain ⟨address', hj, hmeans'⟩ := h.rom_symbol hother huse'
    rw [hi, hj, Option.some.inj (hmeans.symm.trans hmeans')]
  · intro i j line other first second hline hother huse huse' hfirst hsecond hsame
    obtain ⟨address, hi, hmeans⟩ := h.rom_symbol hline huse
    obtain ⟨address', hj, hmeans'⟩ := h.rom_symbol hother huse'
    rw [hi, hj] at hsame
    obtain rfl : address = address' := Instruction.load.inj (Option.some.inj hsame)
    have hcell : ∀ {name}, IsVariable program name →
        image.symbol? name = image.allocated.lookup name := by
      intro name hname
      rw [Image.symbol?, h.labels.lookup_eq_none_iff.mpr hname.1, hname.2]
      rfl
    rw [hcell hfirst] at hmeans
    rw [hcell hsecond] at hmeans'
    exact hallocated.injective hmeans hmeans'

/-- Lines load if no label is declared twice and every instruction can be read. -/
theorem exists_ofLines_iff {lines : List (List Char)} :
    (∃ image, Image.ofLines lines = .ok image) ↔
      (∀ name, ¬ DeclaredTwice lines name) ∧
        ∀ line ∈ instructionLines lines, ∀ error, ¬ Unreadable line error := by
  rcases ofLines_cases lines with ⟨image, hok, hloaded⟩ | ⟨name, hfail, hrepeat⟩ |
    ⟨error, hfail, -, hfirst⟩
  · exact ⟨fun _ => ⟨hloaded.labels.once, hloaded.readable⟩, fun _ => ⟨image, hok⟩⟩
  · constructor
    · rintro ⟨image, hok⟩
      exact absurd (hfail.symm.trans hok) (by simp)
    · rintro ⟨honce, -⟩
      exact absurd hrepeat.declaredTwice (honce name)
  · constructor
    · rintro ⟨image, hok⟩
      exact absurd (hfail.symm.trans hok) (by simp)
    · rintro ⟨-, hreadable⟩
      obtain ⟨line, hline, hwrong⟩ := hfirst.exists_mem
      exact absurd hwrong (hreadable line hline error)

/-- Lines that do not load fail at the first label that is declared again, and else at the first
instruction that cannot be read. -/
theorem ofLines_eq_error_iff {lines : List (List Char)} {error : LoadError} :
    Image.ofLines lines = .error error ↔
      (∃ name, error = .duplicateLabel name ∧ FirstRepeat lines name) ∨
        (∀ name, ¬ DeclaredTwice lines name) ∧ FirstUnreadable (instructionLines lines) error := by
  constructor
  · intro herror
    rcases ofLines_cases lines with ⟨image, hok, -⟩ | ⟨name, hfail, hrepeat⟩ |
      ⟨other, hfail, honce, hfirst⟩
    · exact absurd (hok.symm.trans herror) (by simp)
    · exact .inl ⟨name, Except.error.inj (herror.symm.trans hfail), hrepeat⟩
    · obtain rfl := Except.error.inj (hfail.symm.trans herror)
      exact .inr ⟨honce, hfirst⟩
  · intro hreason
    rcases ofLines_cases lines with ⟨image, hok, hloaded⟩ | ⟨name, hfail, hrepeat⟩ |
      ⟨other, hfail, honce, hfirst⟩
    · rcases hreason with ⟨name, -, hrepeat⟩ | ⟨-, hfirst⟩
      · exact absurd hrepeat.declaredTwice (hloaded.labels.once name)
      · obtain ⟨line, hline, hwrong⟩ := hfirst.exists_mem
        exact absurd hwrong (hloaded.readable line hline error)
    · rcases hreason with ⟨other, rfl, hother⟩ | ⟨honce, -⟩
      · rw [hother.unique hrepeat, hfail]
      · exact absurd hrepeat.declaredTwice (honce name)
    · rcases hreason with ⟨name, -, hrepeat⟩ | ⟨-, hother⟩
      · exact absurd hrepeat.declaredTwice (honce name)
      · rw [hother.unique hfirst, hfail]

/-- A text that loads has an image in which every symbol means what it should.  It does not load if
a label is declared twice, whatever else is wrong, and then fails for the first such label; nor if
an instruction cannot be read, and then fails for the first such instruction.  There is no other
reason. -/
theorem load_resolves_symbols (text : String) :
    let lines := significantLines text
    (∀ image, Image.load text = .ok image → image.Resolves lines) ∧
    ((∃ image, Image.load text = .ok image) ↔
      (∀ name, ¬ DeclaredTwice lines name) ∧
        ∀ line ∈ instructionLines lines, ∀ error, ¬ Unreadable line error) ∧
    (∀ error, Image.load text = .error error ↔
      (∃ name, error = .duplicateLabel name ∧ FirstRepeat lines name) ∨
        (∀ name, ¬ DeclaredTwice lines name) ∧ FirstUnreadable (instructionLines lines) error) := by
  intro lines
  refine ⟨?_, exists_ofLines_iff, fun error => ofLines_eq_error_iff⟩
  intro image hload
  rcases ofLines_cases lines with ⟨other, hok, hloaded⟩ | ⟨name, hfail, -⟩ | ⟨error, hfail, -⟩
  · obtain rfl := Except.ok.inj (hload.symm.trans hok)
    exact hloaded.resolves (isAllocation_of_load hload)
  · exact absurd (hload.symm.trans hfail) (by simp)
  · exact absurd (hload.symm.trans hfail) (by simp)

/-- In the first text a label is used before it is declared, another one has the name of a register,
and a number is written in another script.  In the second text a label is declared twice, and a line
before that cannot be read. -/
theorem load_resolves_symbols_sample :
    let text := "@LOOP\n@x // first\n(R1)\n@R1\n@SP\n(LOOP)\n@y\n@x\n@٠٧\nDM=M+1;JGT\n"
    let image : Image :=
      ⟨#[.load 4, .load 16, .load 2, .load 0, .load 17, .load 16, .load 7,
        .compute ⟨false, true, true⟩ (.succOperand .m) (some .gt)],
        [("R1", 2), ("LOOP", 4)], [("x", 16), ("y", 17)]⟩
    Image.load text = .ok image ∧ image.Resolves (significantLines text) ∧
      Image.load "(A)\n@²\n(A)" = .error (.duplicateLabel "A") := by
  intro text image
  have hload : Image.load text = .ok image := by
    have hfound : (Image.load text).toOption = some image := by decide +kernel
    cases h : Image.load text with
    | error error => simp [h, Except.toOption] at hfound
    | ok loaded =>
        rw [h] at hfound
        exact congrArg Except.ok (Option.some.inj hfound)
  refine ⟨hload, (load_resolves_symbols text).1 image hload, ?_⟩
  refine ((load_resolves_symbols _).2.2 _).mpr (.inl ⟨"A", rfl, ?_⟩)
  refine ⟨["(A)".toList, "@²".toList], "(A)".toList, by decide +kernel, by decide, by decide, ?_⟩
  intro other htwice
  change DeclaredTwice ([] ++ ["(A)".toList] ++ ["@²".toList]) other at htwice
  rcases declaredTwice_concat.mp htwice with hfirst | ⟨hother, -⟩
  · rcases declaredTwice_concat.mp hfirst with hnone | ⟨-, hnone⟩
    · exact collected_nil.once other hnone
    · exact absurd hnone (by simp [Declared])
  · exact absurd hother (by simp [labelOf?])

end HackVm.Hack
