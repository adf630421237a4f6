import HackVm.Proofs.Assembly.Reading

/-!
# Lines of instructions

A line that declares no label is an instruction: it loads a number or a symbol, or it computes.
Here it is said what a line must look like for that, and what is wrong with any other line.

`Parts` cuts a computing line at its marks, `Computes` gives the instruction that its parts stand
for, and `Unreadable` the first thing that is wrong with a line.  Every line is one or the other
(`readCompute_cases`).  Nothing is ever wrong with a symbol, so which lines cannot be read does not
depend on what symbols mean (`readInstruction_of_unreadable`).
-/

namespace HackVm.Hack

open Emit Text

/-- The symbol that a line loads.  Digits are no symbol. -/
def symbolOf? : List Char → Option String
  | '@' :: operand => if isNumberText operand then none else some (String.ofList operand)
  | _ => none

/-- The parts of a computing line: the destination before the first `=`, and in the rest the
computation before the first `;` and the jump after it. -/
def Parts (line destination computation jump : List Char) : Prop :=
  ∃ rest,
    (line = destination ++ '=' :: rest ∧ '=' ∉ destination ∨
      '=' ∉ line ∧ destination = [] ∧ rest = line) ∧
    (rest = computation ++ ';' :: jump ∧ ';' ∉ computation ∨
      ';' ∉ rest ∧ computation = rest ∧ jump = [])

/-- The instruction that a computing line is. -/
inductive Computes (line : List Char) : Instruction → Prop
  | intro {d c j : List Char} {destination : Destination} {computation : Computation}
      (hload : line.head? ≠ some '@') (hparts : Parts line d c j)
      (hcomputation : Computation.ofText? (String.ofList c) = some computation)
      (hjump : j = [] ∨ (Jump.ofText? (String.ofList j)).isSome = true)
      (hdestination : Destination.ofText? (String.ofList d) = some destination) :
      Computes line (.compute destination computation (Jump.ofText? (String.ofList j)))

/-- Why a line is no instruction.  The computation is looked at first, then the jump, then the
destination. -/
inductive Unreadable : List Char → LoadError → Prop
  | number {operand : List Char} {error : NumberError} (hdigits : isNumberText operand = true)
      (herror : readInt 10 (String.ofList operand) = .error error) :
      Unreadable ('@' :: operand) (.number error)
  | computation {line d c j : List Char} (hload : line.head? ≠ some '@') (hparts : Parts line d c j)
      (hcomputation : Computation.ofText? (String.ofList c) = none) :
      Unreadable line (.badComputation (String.ofList c) (String.ofList line))
  | jump {line d c j : List Char} (hload : line.head? ≠ some '@') (hparts : Parts line d c j)
      (hcomputation : (Computation.ofText? (String.ofList c)).isSome = true) (hne : j ≠ [])
      (hjump : Jump.ofText? (String.ofList j) = none) :
      Unreadable line (.badJump (String.ofList j) (String.ofList line))
  | destination {line d c j : List Char} (hload : line.head? ≠ some '@')
      (hparts : Parts line d c j)
      (hcomputation : (Computation.ofText? (String.ofList c)).isSome = true)
      (hjump : j = [] ∨ (Jump.ofText? (String.ofList j)).isSome = true)
      (hdestination : Destination.ofText? (String.ofList d) = none) :
      Unreadable line (.badDestination (String.ofList d) (String.ofList line))

/-! ## Computing -/

/-- Every line has parts. -/
theorem exists_parts (line : List Char) : ∃ d c j, Parts line d c j := by
  have hjump : ∀ rest : List Char, ∃ c j, rest = c ++ ';' :: j ∧ ';' ∉ c ∨
      ';' ∉ rest ∧ c = rest ∧ j = [] := by
    intro rest
    by_cases hmark : ';' ∈ rest
    · obtain ⟨c, j, hrest, hc⟩ := List.eq_append_cons_of_mem hmark
      exact ⟨c, j, .inl ⟨hrest, hc⟩⟩
    · exact ⟨rest, [], .inr ⟨hmark, rfl, rfl⟩⟩
  by_cases hmark : '=' ∈ line
  · obtain ⟨d, rest, hline, hd⟩ := List.eq_append_cons_of_mem hmark
    obtain ⟨c, j, hparts⟩ := hjump rest
    exact ⟨d, c, j, rest, .inl ⟨hline, hd⟩, hparts⟩
  · obtain ⟨c, j, hparts⟩ := hjump line
    exact ⟨[], c, j, line, .inr ⟨hmark, rfl, rfl⟩, hparts⟩

/-- The parts of a line are what it is cut into. -/
private theorem splits_of_parts {line d c j : List Char} (h : Parts line d c j) :
    ∃ rest, (splitAt? '=' line).getD ([], line) = (d, rest) ∧
      (splitAt? ';' rest).getD (rest, []) = (c, j) := by
  have hne : ∀ {mark : Char} {text : List Char}, mark ∉ text → ∀ sign ∈ text, sign ≠ mark := by
    rintro mark text hmark sign hsign rfl
    exact hmark hsign
  obtain ⟨rest, hdestination, hjump⟩ := h
  refine ⟨rest, ?_, ?_⟩
  · rcases hdestination with ⟨rfl, hd⟩ | ⟨hline, rfl, rfl⟩
    · rw [splitAt?_append rest (hne hd), Option.getD_some]
    · rw [splitAt?_of_not_mem (hne hline), Option.getD_none]
  · rcases hjump with ⟨rfl, hc⟩ | ⟨hrest, rfl, rfl⟩
    · rw [splitAt?_append j (hne hc), Option.getD_some]
    · rw [splitAt?_of_not_mem (hne hrest), Option.getD_none]

/-- A computing line fails for what is wrong with it. -/
theorem readCompute_of_unreadable {line : List Char} {error : LoadError}
    (hload : line.head? ≠ some '@') (h : Unreadable line error) :
    readCompute line = .error error := by
  cases h with
  | number => exact absurd rfl hload
  | computation _ hparts hcomputation =>
      obtain ⟨rest, hfirst, hsecond⟩ := splits_of_parts hparts
      simp only [readCompute, hfirst, hsecond, hcomputation]
  | @jump _ _ _ j _ hparts hcomputation hne hjump =>
      obtain ⟨rest, hfirst, hsecond⟩ := splits_of_parts hparts
      obtain ⟨computation, hcomputation⟩ := Option.isSome_iff_exists.mp hcomputation
      obtain ⟨first, more, rfl⟩ := List.exists_cons_of_ne_nil hne
      simp only [readCompute, hfirst, hsecond, hcomputation, hjump]
  | destination _ hparts hcomputation hjump hdestination =>
      obtain ⟨rest, hfirst, hsecond⟩ := splits_of_parts hparts
      obtain ⟨computation, hcomputation⟩ := Option.isSome_iff_exists.mp hcomputation
      rcases hjump with rfl | hjump
      · simp only [readCompute, hfirst, hsecond, hcomputation, hdestination]
      · obtain ⟨jump, hjump⟩ := Option.isSome_iff_exists.mp hjump
        simp only [readCompute, hfirst, hsecond, hcomputation, hjump, hdestination]

/-- A computing line becomes its instruction, or something is wrong with it. -/
theorem readCompute_cases {line : List Char} (hload : line.head? ≠ some '@') :
    (∃ instruction, readCompute line = .ok instruction ∧ Computes line instruction) ∨
      ∃ error, Unreadable line error := by
  obtain ⟨d, c, j, hparts⟩ := exists_parts line
  cases hcomputation : Computation.ofText? (String.ofList c) with
  | none => exact .inr ⟨_, .computation hload hparts hcomputation⟩
  | some computation =>
      have hsome : (Computation.ofText? (String.ofList c)).isSome = true := by
        rw [hcomputation, Option.isSome_some]
      by_cases hjump : j = [] ∨ (Jump.ofText? (String.ofList j)).isSome = true
      · cases hdestination : Destination.ofText? (String.ofList d) with
        | none => exact .inr ⟨_, .destination hload hparts hsome hjump hdestination⟩
        | some destination =>
            refine .inl ⟨_, ?_, .intro hload hparts hcomputation hjump hdestination⟩
            obtain ⟨rest, hfirst, hsecond⟩ := splits_of_parts hparts
            rcases hjump with rfl | hjump
            · simp only [readCompute, hfirst, hsecond, hcomputation, hdestination]
            · obtain ⟨jump, hjump⟩ := Option.isSome_iff_exists.mp hjump
              simp only [readCompute, hfirst, hsecond, hcomputation, hjump, hdestination]
      · obtain ⟨hne, hnone⟩ := not_or.mp hjump
        exact .inr ⟨_, .jump hload hparts hsome hne (Option.not_isSome_iff_eq_none.mp hnone)⟩

/-! ## Loading -/

/-- Digits give no negative number. -/
theorem readInt_nonneg {operand : List Char} {value : Int} (hdigits : isNumberText operand = true)
    (h : readInt 10 (String.ofList operand) = .ok value) : 0 ≤ value := by
  have hall : ∀ sign ∈ operand, isDigitLike sign = true :=
    List.all_eq_true.mp (Bool.and_eq_true_iff.mp hdigits).2
  -- The sign of a numeral is the first character left after trimming, and here that is a digit.
  have hminus : (takeSign (trimWhere isNumeralBlank operand)).1 = false := by
    have hpiece := (trimWhere_isInfix isNumeralBlank operand).subset
    unfold takeSign
    split
    · next rest hrest =>
      rw [hrest] at hpiece
      exact absurd (hall '-' (hpiece (List.mem_cons_self ..))) (by decide +kernel)
    · rfl
    · rfl
  unfold readInt at h
  rw [String.toList_ofList] at h
  dsimp only at h
  split at h
  · exact absurd h (by simp)
  · exact absurd h (by simp)
  · rw [hminus] at h
    rw [← Except.ok.inj h]
    exact Int.natCast_nonneg _

theorem symbolOf?_eq_some {line : List Char} {name : String} (h : symbolOf? line = some name) :
    ∃ operand, line = '@' :: operand ∧ isNumberText operand = false ∧
      name = String.ofList operand := by
  unfold symbolOf? at h
  split at h
  · next operand =>
    split at h
    · exact absurd h (by simp)
    · next hnumber =>
      exact ⟨operand, rfl, Bool.eq_false_iff.mpr hnumber, (Option.some.inj h).symm⟩
  · exact absurd h (by simp)

theorem symbolOf?_eq_none {line : List Char} (hload : line.head? ≠ some '@') :
    symbolOf? line = none := by
  unfold symbolOf?
  split
  · exact absurd rfl hload
  · rfl

/-- What a line is: a number, a symbol, or something to compute. -/
theorem line_cases (line : List Char) :
    (∃ operand, line = '@' :: operand ∧ isNumberText operand = true) ∨
      (∃ name, symbolOf? line = some name) ∨ line.head? ≠ some '@' := by
  by_cases hload : line.head? = some '@'
  · obtain ⟨operand, rfl⟩ := List.head?_eq_some_iff.mp hload
    cases hnumber : isNumberText operand with
    | true => exact .inl ⟨operand, rfl, hnumber⟩
    | false => exact .inr (.inl ⟨String.ofList operand, by simp [symbolOf?, hnumber]⟩)
  · exact .inr (.inr hload)

section OneLine

variable {labels allocated : Symbols} {line : List Char}

theorem readInstruction_symbol {name : String} (huse : symbolOf? line = some name) :
    readInstruction labels allocated line =
      .ok (.load (resolve labels allocated name).1, (resolve labels allocated name).2) := by
  obtain ⟨operand, rfl, hnumber, rfl⟩ := symbolOf?_eq_some huse
  rw [readInstruction, hnumber, if_neg (by simp)]

theorem readInstruction_computing (hload : line.head? ≠ some '@') :
    readInstruction labels allocated line =
      (readCompute line).map fun instruction => (instruction, allocated) := by
  unfold readInstruction
  split
  · exact absurd rfl hload
  · rfl

/-- What is wrong with a line does not depend on the symbols. -/
theorem readInstruction_of_unreadable {error : LoadError} (h : Unreadable line error) :
    readInstruction labels allocated line = .error error := by
  by_cases hload : line.head? = some '@'
  · cases h with
    | number hdigits herror => simp only [readInstruction, hdigits, if_true, herror]
    | computation hother => exact absurd hload hother
    | jump hother => exact absurd hload hother
    | destination hother => exact absurd hload hother
  · rw [readInstruction_computing hload, readCompute_of_unreadable hload h]
    rfl

end OneLine

end HackVm.Hack
