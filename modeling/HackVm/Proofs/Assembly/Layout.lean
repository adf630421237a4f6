import HackVm.Proofs.Assembly.Reading

/-!
# Statements in program memory

A list of statements that is written out and loaded again ends up in program memory in order:
`Image.LaysOut` says that, from an address on, every load and every computation is the next
instruction, and every declared label is known by the address at which it stands.

`laysOut_of_load` is the main result.  It rests on one induction for each pass of the loader:
`collectLabels_lines` for the labels and `assemble_lines` for the instructions.  In the second
pass a symbol is resolved when only some variables are allocated; what it means then is what it
means in the end, because allocation only appends (`resolve_final`).
-/

namespace HackVm.Hack

open Emit Text

/-! ## Meanings -/

/-- The address that an operand means, for given labels and variables: the number that it spells,
or else the address of the symbol. -/
def operandValue (labels allocated : Symbols) (operand : List Char) : Nat :=
  if isNumberText operand then
    match readInt 10 (String.ofList operand) with
    | .ok value => value.toNat
    | .error _ => 0
  else
    ((labels.lookup (String.ofList operand)).or
      ((predefined.lookup (String.ofList operand)).or
        (allocated.lookup (String.ofList operand)))).getD 0

/-- The address that a loaded symbol means in an image. -/
def Image.meaning (image : Image) (symbol : Symbol) : Nat :=
  operandValue image.labels image.allocated symbol.operand

/-- The instruction that a statement becomes, for given labels and variables. -/
def instruction? (labels allocated : Symbols) : Statement → Option Instruction
  | .load symbol => some (.load (operandValue labels allocated symbol.operand))
  | .compute destination computation jump => some (.compute destination computation jump)
  | _ => none

/-- Statements that become instructions. -/
def isCode : Statement → Bool
  | .load _ => true
  | .compute _ _ _ => true
  | _ => false

/-- The number of instructions that statements become. -/
def codeSize (statements : List Statement) : Nat :=
  statements.countP isCode

@[simp] theorem codeSize_nil : codeSize [] = 0 := rfl

@[simp] theorem codeSize_cons (statement : Statement) (rest : List Statement) :
    codeSize (statement :: rest) = codeSize rest + if isCode statement then 1 else 0 :=
  List.countP_cons

@[simp] theorem codeSize_append (first second : List Statement) :
    codeSize (first ++ second) = codeSize first + codeSize second :=
  List.countP_append

theorem length_filterMap_instruction? (labels allocated : Symbols) (statements : List Statement) :
    (statements.filterMap (instruction? labels allocated)).length = codeSize statements := by
  induction statements with
  | nil => rfl
  | cons statement rest ih =>
      cases statement <;> simp [List.filterMap_cons, instruction?, isCode, ih]

/-! ## Statements at an address -/

/-- The statements stand in the image from an address on. -/
def Image.LaysOut (image : Image) (address : Nat) : List Statement → Prop
  | [] => True
  | .comment _ :: rest => image.LaysOut address rest
  | .declare symbol :: rest =>
    image.labels.lookup symbol.text = some address ∧ image.LaysOut address rest
  | .load symbol :: rest =>
    image.rom[address]? = some (.load (image.meaning symbol)) ∧ image.LaysOut (address + 1) rest
  | .compute destination computation jump :: rest =>
    image.rom[address]? = some (.compute destination computation jump) ∧
      image.LaysOut (address + 1) rest

/-- Two lists stand one after the other. -/
theorem laysOut_append {image : Image} {address : Nat} {first second : List Statement} :
    image.LaysOut address (first ++ second) ↔
      image.LaysOut address first ∧ image.LaysOut (address + codeSize first) second := by
  induction first generalizing address with
  | nil => simp [Image.LaysOut]
  | cons statement rest ih =>
      cases statement with
      | comment text => simp [Image.LaysOut, ih, isCode]
      | declare symbol => simp [Image.LaysOut, ih, isCode, and_assoc]
      | load symbol =>
          simp only [List.cons_append, Image.LaysOut, ih, codeSize_cons, isCode, if_true, and_assoc]
          rw [show address + 1 + codeSize rest = address + (codeSize rest + 1) by omega]
      | compute destination computation jump =>
          simp only [List.cons_append, Image.LaysOut, ih, codeSize_cons, isCode, if_true, and_assoc]
          rw [show address + 1 + codeSize rest = address + (codeSize rest + 1) by omega]

/-! ## The first pass -/

/-- The labels that statements declare from an address on. -/
def declarations (address : Nat) : List Statement → Symbols
  | [] => []
  | .declare symbol :: rest => (symbol.text, address) :: declarations address rest
  | statement :: rest => declarations (address + if isCode statement then 1 else 0) rest

theorem declarations_append (address : Nat) (first second : List Statement) :
    declarations address (first ++ second) =
      declarations address first ++ declarations (address + codeSize first) second := by
  induction first generalizing address with
  | nil => rfl
  | cons statement rest ih =>
      cases statement with
      | comment text => simp [declarations, ih, isCode]
      | declare symbol => simp [declarations, ih, isCode]
      | load symbol =>
          simp only [List.cons_append, declarations, ih, codeSize_cons, isCode, if_true]
          rw [show address + 1 + codeSize rest = address + (codeSize rest + 1) by omega]
      | compute destination computation jump =>
          simp only [List.cons_append, declarations, ih, codeSize_cons, isCode, if_true]
          rw [show address + 1 + codeSize rest = address + (codeSize rest + 1) by omega]

theorem exists_declare_of_mem_declarations {address : Nat} {statements : List Statement}
    {entry : String × Nat} (hentry : entry ∈ declarations address statements) :
    ∃ symbol, .declare symbol ∈ statements ∧ symbol.text = entry.1 := by
  induction statements generalizing address with
  | nil => simp [declarations] at hentry
  | cons statement rest ih =>
      have hlater : ∀ {start}, entry ∈ declarations start rest →
          ∃ symbol, .declare symbol ∈ statement :: rest ∧ symbol.text = entry.1 := by
        intro start hmem
        obtain ⟨symbol, hsymbol, htext⟩ := ih hmem
        exact ⟨symbol, List.mem_cons_of_mem _ hsymbol, htext⟩
      cases statement with
      | comment text => exact hlater hentry
      | declare symbol =>
          rcases List.mem_cons.mp hentry with rfl | hmem
          · exact ⟨symbol, List.mem_cons_self .., rfl⟩
          · exact hlater hmem
      | load symbol => exact hlater hentry
      | compute destination computation jump => exact hlater hentry

theorem labelOf?_declare (symbol : Symbol) :
    labelOf? ('(' :: (symbol.text.toList ++ [')'])) = some symbol.text := by
  rw [labelOf?, List.dropLast_concat, String.ofList_toList]

theorem labelOf?_load (operand : List Char) : labelOf? ('@' :: operand) = none := rfl

theorem labelOf?_compute (destination : Destination) (computation : Computation)
    (jump : Option Jump) :
    labelOf? (computeText destination computation jump).toList = none := by
  obtain ⟨first, rest, htext, hparen, -⟩ := computeText_eq_cons destination computation jump
  rw [htext, labelOf?]
  intro _ h
  exact hparen (List.cons.inj h).1

private theorem lookup_eq_none_iff {table : Symbols} {name : String} :
    table.lookup name = none ↔ name ∉ table.map Prod.fst := by
  rw [List.lookup_eq_none_iff]
  constructor
  · intro h hmem
    obtain ⟨entry, hentry, rfl⟩ := List.mem_map.mp hmem
    simpa using h entry hentry
  · intro h entry hentry
    rw [bne_iff_ne]
    rintro rfl
    exact h (List.mem_map_of_mem hentry)

theorem mem_of_lookup {table : Symbols} {name : String} {address : Nat}
    (h : table.lookup name = some address) : (name, address) ∈ table := by
  induction table with
  | nil => simp at h
  | cons entry rest ih =>
      obtain ⟨first, old⟩ := entry
      rw [List.lookup_cons] at h
      split at h
      · next hsame =>
        rw [beq_iff_eq.mp hsame, Option.some.inj h]
        exact List.mem_cons_self ..
      · exact List.mem_cons_of_mem _ (ih h)

/-- In a table without repeated names, a name has the value it was entered with. -/
theorem lookup_of_mem {table : Symbols} (hnodup : (table.map Prod.fst).Nodup) {name : String}
    {address : Nat} (hmem : (name, address) ∈ table) : table.lookup name = some address := by
  induction table with
  | nil => simp at hmem
  | cons entry rest ih =>
      obtain ⟨first, old⟩ := entry
      rw [List.map_cons, List.nodup_cons] at hnodup
      rcases List.mem_cons.mp hmem with heq | hlater
      · obtain ⟨rfl, rfl⟩ := Prod.mk.inj heq
        simp
      · have hne : name ≠ first := by
          rintro rfl
          exact hnodup.1 (List.mem_map.mpr ⟨_, hlater, rfl⟩)
        rw [List.lookup_cons, beq_eq_false_iff_ne.mpr hne]
        exact ih hnodup.2 hlater

/-- The first pass enters the declared labels, each once, after those that were there. -/
theorem collectLabels_lines {address : Nat} {labels table : Symbols} {statements : List Statement}
    (hnodup : (labels.map Prod.fst).Nodup)
    (hcollect : collectLabels address labels (statements.filterMap Statement.line?) = .ok table) :
    table = labels ++ declarations address statements ∧ (table.map Prod.fst).Nodup := by
  induction statements generalizing address labels with
  | nil =>
      obtain rfl : labels = table := Except.ok.inj hcollect
      exact ⟨by simp [declarations], hnodup⟩
  | cons statement rest ih =>
      cases statement with
      | comment text =>
          exact ih hnodup hcollect
      | declare symbol =>
          simp only [List.filterMap_cons, Statement.line?, collectLabels,
            labelOf?_declare] at hcollect
          split at hcollect
          · exact absurd hcollect (by simp)
          · next hnone =>
            have hnew : ((labels ++ [(symbol.text, address)]).map Prod.fst).Nodup := by
              rw [List.map_append, List.nodup_append]
              refine ⟨hnodup, by simp, ?_⟩
              intro name hname other hother hequal
              have hsame : other = symbol.text := by simpa using hother
              exact lookup_eq_none_iff.mp hnone (by rw [← hsame, ← hequal]; exact hname)
            obtain ⟨htable, htableNodup⟩ := ih hnew hcollect
            exact ⟨by rw [htable, List.append_assoc]; rfl, htableNodup⟩
      | load symbol =>
          simp only [List.filterMap_cons, Statement.line?, collectLabels, labelOf?_load] at hcollect
          exact ih hnodup hcollect
      | compute destination computation jump =>
          simp only [List.filterMap_cons, Statement.line?, collectLabels,
            labelOf?_compute] at hcollect
          exact ih hnodup hcollect

/-! ## The second pass -/

/-- Allocation only appends, and what a symbol was resolved to is what it means in the end. -/
theorem resolve_final {labels allocated after : Symbols} {name : String} {address : Nat}
    (hresolve : resolve labels allocated name = (address, after)) :
    allocated <+: after ∧
      ∀ final : Symbols, after <+: final → (labels.lookup name).or
        ((predefined.lookup name).or (final.lookup name)) = some address := by
  unfold resolve at hresolve
  split at hresolve
  · next found hfound =>
    obtain ⟨rfl, rfl⟩ := Prod.mk.inj hresolve
    refine ⟨List.prefix_rfl, ?_⟩
    rintro _ ⟨later, rfl⟩
    rcases Option.or_eq_some_iff.mp hfound with hlabel | ⟨hlabel, hother⟩
    · simp [hlabel]
    · rcases Option.or_eq_some_iff.mp hother with hpredefined | ⟨hpredefined, hallocated⟩
      · simp [hlabel, hpredefined]
      · simp [hlabel, hpredefined, List.lookup_append, hallocated]
  · next hnone =>
    obtain ⟨rfl, rfl⟩ := Prod.mk.inj hresolve
    refine ⟨List.prefix_append .., ?_⟩
    rintro _ ⟨later, rfl⟩
    obtain ⟨hlabel, hother⟩ := Option.or_eq_none_iff.mp hnone
    obtain ⟨hpredefined, hallocated⟩ := Option.or_eq_none_iff.mp hother
    simp [List.lookup_append, hlabel, hpredefined, hallocated]

/-- A load is read as the instruction that loads what its symbol means in the end. -/
theorem readInstruction_load {labels allocated after : Symbols} {symbol : Symbol}
    {instruction : Instruction}
    (hread : readInstruction labels allocated ('@' :: symbol.operand) = .ok (instruction, after)) :
    allocated <+: after ∧ ∀ final : Symbols, after <+: final →
      instruction = .load (operandValue labels final symbol.operand) := by
  simp only [readInstruction] at hread
  split at hread
  · next hnumber =>
    split at hread
    · next value hvalue =>
      obtain ⟨rfl, rfl⟩ := Prod.mk.inj (Except.ok.inj hread)
      refine ⟨List.prefix_rfl, fun _ _ => ?_⟩
      simp [operandValue, hnumber, hvalue]
    · exact absurd hread (by simp)
  · next hname =>
    obtain ⟨rfl, hafter⟩ := Prod.mk.inj (Except.ok.inj hread)
    have hfinal := resolve_final
      (Prod.ext_iff.mpr ⟨rfl, hafter⟩ : resolve labels allocated _ = (_, after))
    refine ⟨hfinal.1, fun final hgrown => ?_⟩
    simp [operandValue, hname, hfinal.2 final hgrown]

private theorem readInstruction_compute (labels allocated : Symbols) (destination : Destination)
    (computation : Computation) (jump : Option Jump) :
    readInstruction labels allocated (computeText destination computation jump).toList =
      .ok (.compute destination computation jump, allocated) := by
  have hread := readCompute_computeText destination computation jump
  obtain ⟨first, rest, htext, -, hat⟩ := computeText_eq_cons destination computation jump
  rw [htext] at hread ⊢
  rw [readInstruction]
  · rw [hread]
    rfl
  · intro _ h
    exact hat (List.cons.inj h).1

/-- The second pass appends the instructions of the statements, with every symbol as it is meant
in the end. -/
theorem assemble_lines {labels allocated final : Symbols} {rom result : Array Instruction}
    {statements : List Statement}
    (hassemble : assemble labels allocated rom (statements.filterMap Statement.line?) =
      .ok (result, final)) :
    allocated <+: final ∧
      result.toList = rom.toList ++ statements.filterMap (instruction? labels final) := by
  induction statements generalizing allocated rom with
  | nil =>
      obtain ⟨rfl, rfl⟩ := Prod.mk.inj (Except.ok.inj hassemble)
      exact ⟨List.prefix_rfl, by simp⟩
  | cons statement rest ih =>
      cases statement with
      | comment text => exact ih hassemble
      | declare symbol =>
          simp only [List.filterMap_cons, Statement.line?, assemble, labelOf?_declare,
            Option.isSome_some, if_true] at hassemble
          exact ih hassemble
      | load symbol =>
          simp only [List.filterMap_cons, Statement.line?, assemble, labelOf?_load,
            Option.isSome_none, Bool.false_eq_true, if_false] at hassemble
          split at hassemble
          · exact absurd hassemble (by simp)
          · next instruction after hread =>
            obtain ⟨hgrown, hresult⟩ := ih hassemble
            obtain ⟨hfirst, hinstruction⟩ := readInstruction_load hread
            refine ⟨hfirst.trans hgrown, ?_⟩
            rw [hresult, hinstruction final hgrown]
            simp [instruction?]
      | compute destination computation jump =>
          simp only [List.filterMap_cons, Statement.line?, assemble, labelOf?_compute,
            Option.isSome_none, Bool.false_eq_true, if_false, readInstruction_compute] at hassemble
          obtain ⟨hgrown, hresult⟩ := ih hassemble
          refine ⟨hgrown, ?_⟩
          rw [hresult]
          simp [instruction?]

/-! ## Both passes together -/

/-- Loads significant lines. -/
def Image.ofLines (lines : List (List Char)) : Except LoadError Image := do
  let labels ← collectLabels 0 [] lines
  let (rom, allocated) ← assemble labels [] #[] lines
  return ⟨rom, labels, allocated⟩

theorem load_eq_ofLines (text : String) :
    Image.load text = Image.ofLines (significantLines text) := rfl

/-- Loading succeeds when both passes do. -/
theorem load_eq_ok {text : String} {image : Image} (hload : Image.load text = .ok image) :
    collectLabels 0 [] (significantLines text) = .ok image.labels ∧
      assemble image.labels [] #[] (significantLines text) = .ok (image.rom, image.allocated) := by
  rw [load_eq_ofLines] at hload
  unfold Image.ofLines at hload
  simp only [bind, Except.bind, pure, Except.pure] at hload
  split at hload
  · exact absurd hload (by simp)
  · next labels hcollect =>
    split at hload
    · exact absurd hload (by simp)
    · next parts hassemble =>
      obtain ⟨rom, allocated⟩ := parts
      obtain rfl := Except.ok.inj hload
      exact ⟨hcollect, hassemble⟩

/-- What is in program memory after `front` are the statements after `front`. -/
private theorem laysOut_suffix {image : Image} {front rest : List Statement}
    (hrom : image.rom.toList =
      (front ++ rest).filterMap (instruction? image.labels image.allocated))
    (hlabels : ∀ entry ∈ declarations 0 (front ++ rest),
      image.labels.lookup entry.1 = some entry.2) :
    image.LaysOut (codeSize front) rest := by
  induction rest generalizing front with
  | nil => trivial
  | cons statement rest ih =>
      have hrest : image.LaysOut (codeSize (front ++ [statement])) rest :=
        ih (by simpa using hrom) (by simpa using hlabels)
      have hnext : ∀ instruction, instruction? image.labels image.allocated statement =
          some instruction → image.rom[codeSize front]? = some instruction := by
        intro instruction hinstruction
        rw [← Array.getElem?_toList, hrom, List.filterMap_append,
          List.filterMap_cons_some hinstruction,
          ← length_filterMap_instruction? image.labels image.allocated front]
        simp
      cases statement with
      | comment text => simpa [isCode, Image.LaysOut] using hrest
      | declare symbol =>
          have hmem : (symbol.text, codeSize front) ∈
              declarations 0 (front ++ .declare symbol :: rest) := by
            rw [declarations_append, Nat.zero_add]
            exact List.mem_append_right _ (List.mem_cons_self ..)
          exact ⟨hlabels _ hmem, by simpa [isCode] using hrest⟩
      | load symbol => exact ⟨hnext _ rfl, by simpa [isCode] using hrest⟩
      | compute destination computation jump =>
          exact ⟨hnext _ rfl, by simpa [isCode] using hrest⟩

/-- Statements that are written out and loaded stand in program memory from address zero on, and
nothing else does. -/
theorem laysOut_of_load {statements : List Statement} {image : Image}
    (hlines : ∀ statement ∈ statements, statement.IsLine)
    (hload : Image.load (assembly statements) = .ok image) :
    image.LaysOut 0 statements ∧ image.rom.size = codeSize statements ∧
      image.labels = declarations 0 statements := by
  obtain ⟨hcollect, hassemble⟩ := load_eq_ok hload
  rw [significantLines_assembly hlines] at hcollect hassemble
  obtain ⟨hlabels, hnodup⟩ := collectLabels_lines (by simp) hcollect
  obtain ⟨-, hrom⟩ := assemble_lines hassemble
  rw [List.nil_append] at hlabels hrom
  have hall : ∀ entry ∈ declarations 0 ([] ++ statements),
      image.labels.lookup entry.1 = some entry.2 := by
    intro entry hentry
    rw [List.nil_append, ← hlabels] at hentry
    exact lookup_of_mem hnodup hentry
  refine ⟨laysOut_suffix hrom hall, ?_, hlabels⟩
  rw [← Array.length_toList, hrom, length_filterMap_instruction?]

end HackVm.Hack
