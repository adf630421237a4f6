import HackVm.Emit.Statement
import HackVm.Hack.Image
import HackVm.Proofs.Text.Lines

/-!
# How the loader reads statements

Emitted statements are written one to a line, and the loader gets them back from the text.

* `significantLines_assembly`: the significant lines of an assembly text are the lines of its
  statements, comments left out.
* `readCompute_computeText`: a computing statement is read as the instruction it was written for.

A declared or loaded symbol reaches the loader as text only.  Of a loaded symbol it sees the
`operand`: what stands before a comment, without the blanks at the end.  For most symbols that is
the whole text (`operand_eq_text`).
-/

namespace HackVm.Emit

open Hack Text

/-- The characters of a loaded symbol that the loader sees. -/
def Symbol.operand (symbol : Symbol) : List Char :=
  withoutEndBlanks (beforeComment symbol.text.toList)

/-- A symbol without a comment mark that does not end in a blank is seen whole. -/
theorem Symbol.operand_eq_text {symbol : Symbol} {front : List Char} {last : Char}
    (htext : symbol.text.toList = front ++ [last]) (hlast : isBlank last = false)
    (hmark : ¬ commentMark <:+: symbol.text.toList) : symbol.operand = symbol.text.toList := by
  rw [Symbol.operand, beforeComment_eq_self hmark, htext,
    withoutEndBlanks_append_singleton hlast]

/-- A statement that is written on a single line, where a declared name is not cut by a comment. -/
def Statement.IsLine : Statement → Prop
  | .comment text => IsSingleLine text
  | .declare symbol => IsSingleLine symbol.text ∧ ¬ commentMark <:+: symbol.text.toList
  | .load symbol => IsSingleLine symbol.text
  | .compute _ _ _ => True

/-- The line that the loader sees of a statement.  It sees nothing of a comment. -/
def Statement.line? : Statement → Option (List Char)
  | .comment _ => none
  | .declare symbol => some ('(' :: (symbol.text.toList ++ [')']))
  | .load symbol => some ('@' :: symbol.operand)
  | .compute destination computation jump =>
    some (computeText destination computation jump).toList

/-! ## Mnemonics -/

/-- The signs of mnemonics are neither blanks nor slashes, and no separators of their own. -/
private def IsMnemonicSign (c : Char) : Prop :=
  isBlank c = false ∧ c ≠ '/' ∧ c ≠ '=' ∧ c ≠ ';'

private instance (c : Char) : Decidable (IsMnemonicSign c) :=
  inferInstanceAs (Decidable (_ ∧ _ ∧ _ ∧ _))

private def IsMnemonic (text : String) : Prop :=
  ∀ c ∈ text.toList, IsMnemonicSign c

private instance (text : String) : Decidable (IsMnemonic text) :=
  List.decidableBAll IsMnemonicSign text.toList

private theorem isMnemonic_computation (computation : Computation) :
    IsMnemonic computation.text := by
  cases computation <;> (try (rename_i x; cases x)) <;> decide

private theorem isMnemonic_jump (jump : Jump) : IsMnemonic jump.text := by
  cases jump <;> decide

private theorem isMnemonic_destination (destination : Destination) :
    IsMnemonic destination.text := by
  obtain ⟨a, m, d⟩ := destination
  cases a <;> cases m <;> cases d <;> decide

/-- The part of a computing line after the destination. -/
private def tailText (computation : Computation) (jump : Option Jump) : List Char :=
  computation.text.toList ++
    match jump with
    | some jump => ';' :: jump.text.toList
    | none => []

private theorem computeText_toList (destination : Destination) (computation : Computation)
    (jump : Option Jump) :
    (computeText destination computation jump).toList =
      (if destination.text.isEmpty then [] else destination.text.toList ++ ['=']) ++
        tailText computation jump := by
  cases jump <;> by_cases hempty : destination.text.isEmpty = true <;>
    simp [computeText, tailText, hempty]

private theorem sign_of_mem_tailText {computation : Computation} {jump : Option Jump} {c : Char}
    (hc : c ∈ tailText computation jump) : isBlank c = false ∧ c ≠ '/' ∧ c ≠ '=' := by
  cases jump with
  | none =>
      rw [tailText, List.append_nil] at hc
      obtain ⟨hblank, hslash, hequal, -⟩ := isMnemonic_computation computation c hc
      exact ⟨hblank, hslash, hequal⟩
  | some jump =>
      rcases List.mem_append.mp hc with hc | hc
      · obtain ⟨hblank, hslash, hequal, -⟩ := isMnemonic_computation computation c hc
        exact ⟨hblank, hslash, hequal⟩
      · rcases List.mem_cons.mp hc with rfl | hc
        · decide
        · obtain ⟨hblank, hslash, hequal, -⟩ := isMnemonic_jump jump c hc
          exact ⟨hblank, hslash, hequal⟩

/-- A computing line holds neither blanks nor slashes. -/
theorem sign_of_mem_computeText {destination : Destination} {computation : Computation}
    {jump : Option Jump} {c : Char} (hc : c ∈ (computeText destination computation jump).toList) :
    isBlank c = false ∧ c ≠ '/' := by
  rw [computeText_toList] at hc
  rcases List.mem_append.mp hc with hc | hc
  · split at hc
    · simp at hc
    · rcases List.mem_append.mp hc with hc | hc
      · obtain ⟨hblank, hslash, -⟩ := isMnemonic_destination destination c hc
        exact ⟨hblank, hslash⟩
      · rw [List.mem_singleton.mp hc]
        decide
  · obtain ⟨hblank, hslash, -⟩ := sign_of_mem_tailText hc
    exact ⟨hblank, hslash⟩

/-- A computing line starts neither like a declaration nor like a load. -/
theorem computeText_eq_cons (destination : Destination) (computation : Computation)
    (jump : Option Jump) :
    ∃ first rest, (computeText destination computation jump).toList = first :: rest ∧
      first ≠ '(' ∧ first ≠ '@' := by
  have hfirst : ∀ computation : Computation, ∃ first rest,
      computation.text.toList = first :: rest ∧ first ≠ '(' ∧ first ≠ '@' := by
    intro computation
    cases computation <;> (try (rename_i x; cases x)) <;>
      exact ⟨_, _, rfl, by decide, by decide⟩
  obtain ⟨first, rest, htext, hsigns⟩ := hfirst computation
  obtain ⟨a, m, d⟩ := destination
  rw [computeText_toList]
  unfold tailText
  rw [htext]
  cases a <;> cases m <;> cases d
  case false.false.false => exact ⟨first, _, rfl, hsigns⟩
  all_goals exact ⟨_, _, rfl, by decide, by decide⟩

/-! ## Reading a computing line -/

/-- A text without the mark is not split. -/
theorem splitAt?_of_not_mem {mark : Char} {text : List Char} (hmark : ∀ c ∈ text, c ≠ mark) :
    splitAt? mark text = none := by
  have hall : text.takeWhile (· != mark) = text := by
    have hpos : ∀ c ∈ text, (c != mark) = true := fun c hc => by simpa using hmark c hc
    simpa using @List.takeWhile_append_of_pos _ (· != mark) text [] hpos
  simp [splitAt?, hall]

/-- A text is split at the first mark. -/
theorem splitAt?_append {mark : Char} {before : List Char} (after : List Char)
    (hmark : ∀ c ∈ before, c ≠ mark) :
    splitAt? mark (before ++ mark :: after) = some (before, after) := by
  have hfront : (before ++ mark :: after).takeWhile (· != mark) = before := by
    rw [List.takeWhile_append_of_pos (fun c hc => by simpa using hmark c hc)]
    simp
  simp [splitAt?, hfront]

private theorem splitAt?_semicolon_tailText (computation : Computation) (jump : Option Jump) :
    (splitAt? ';' (tailText computation jump)).getD (tailText computation jump, []) =
      (computation.text.toList, (jump.map (·.text.toList)).getD []) := by
  have hnone : ∀ c ∈ computation.text.toList, c ≠ ';' :=
    fun c hc => (isMnemonic_computation computation c hc).2.2.2
  cases jump with
  | none => simp [tailText, splitAt?_of_not_mem hnone]
  | some jump => simp [tailText, splitAt?_append _ hnone]

private theorem splitAt?_equal_computeText (destination : Destination) (computation : Computation)
    (jump : Option Jump) :
    (splitAt? '=' (computeText destination computation jump).toList).getD
        ([], (computeText destination computation jump).toList) =
      (destination.text.toList, tailText computation jump) := by
  have htail : ∀ c ∈ tailText computation jump, c ≠ '=' :=
    fun c hc => (sign_of_mem_tailText hc).2.2
  have hfront : ∀ c ∈ destination.text.toList, c ≠ '=' :=
    fun c hc => (isMnemonic_destination destination c hc).2.2.1
  rw [computeText_toList]
  split
  · next hempty =>
    have hnil : destination.text = "" := by simpa using hempty
    simp [splitAt?_of_not_mem htail, hnil]
  · rw [List.append_assoc, List.singleton_append, splitAt?_append _ hfront]
    rfl

/-- A computing statement is read as the instruction it was written for. -/
theorem readCompute_computeText (destination : Destination) (computation : Computation)
    (jump : Option Jump) :
    readCompute (computeText destination computation jump).toList =
      .ok (.compute destination computation jump) := by
  simp only [readCompute, splitAt?_equal_computeText, splitAt?_semicolon_tailText,
    String.ofList_toList, Computation.ofText?_text, Destination.ofText?_text]
  cases jump with
  | none => rfl
  | some jump => cases jump <;> rfl

/-! ## The lines of a text -/

theorem Statement.IsLine.isSingleLine {statement : Statement} (hline : statement.IsLine) :
    IsSingleLine statement.text := by
  cases statement with
  | comment text =>
      have hslashes : IsSingleLine "// " := by decide
      exact hslashes.append hline
  | declare symbol =>
      have hopening : IsSingleLine "(" := by decide
      have hclosing : IsSingleLine ")" := by decide
      exact (hopening.append hline.1).append hclosing
  | load symbol =>
      have hat : IsSingleLine "@" := by decide
      exact hat.append hline
  | compute destination computation jump =>
      intro c hc
      exact isLineBreak_of_not_isBlank (sign_of_mem_computeText hc).1

/-- Of a statement on a single line the loader sees `line?`. -/
theorem Statement.IsLine.significantPart {statement : Statement} (hline : statement.IsLine) :
    significantPart statement.text.toList = statement.line?.getD [] := by
  cases statement with
  | comment text =>
      simp only [Statement.text, String.toList_append]
      exact significantPart_comment _
  | declare symbol =>
      have hmark : ¬ commentMark <:+: symbol.text.toList ++ [')'] :=
        not_isInfix_append_cons (by decide) hline.2 (by simp [commentMark])
      simp only [Statement.text, String.toList_append, Statement.line?, Option.getD_some]
      exact significantPart_eq_self (by decide) (by decide) (by decide) hmark
  | load symbol =>
      simp only [Statement.text, String.toList_append, Statement.line?, Option.getD_some]
      exact significantPart_cons (by decide) (by decide) _
  | compute destination computation jump =>
      have hsigns : ∀ c ∈ (computeText destination computation jump).toList,
          isBlank c = false ∧ c ≠ '/' := fun _ => sign_of_mem_computeText
      exact significantPart_of_not_isBlank (fun c hc => (hsigns c hc).1)
        (not_isInfix_of_forall_ne fun c hc => (hsigns c hc).2)

private theorem line?_ne_nil {statement : Statement} {line : List Char}
    (hline : statement.line? = some line) : line ≠ [] := by
  cases statement with
  | comment text => simp [Statement.line?] at hline
  | declare symbol => rw [← Option.some.inj hline]; simp
  | load symbol => rw [← Option.some.inj hline]; simp
  | compute destination computation jump =>
      obtain ⟨first, rest, htext, -⟩ := computeText_eq_cons destination computation jump
      rw [← Option.some.inj hline, htext]
      simp

/-- The significant lines of an assembly text are those of its statements. -/
theorem significantLines_assembly {statements : List Statement}
    (hlines : ∀ statement ∈ statements, statement.IsLine) :
    significantLines (assembly statements) = statements.filterMap Statement.line? := by
  have hcut : linesFrom [] (assembly statements).toList =
      statements.map fun statement => statement.text.toList := by
    rw [assembly, String.toList_ofList]
    exact linesFrom_flatMap _ fun statement hmem => (hlines statement hmem).isSingleLine
  rw [significantLines, hcut, List.map_map]
  clear hcut
  induction statements with
  | nil => rfl
  | cons statement rest ih =>
      have hrest := ih fun later hlater => hlines later (List.mem_cons_of_mem _ hlater)
      have hfirst := (hlines statement (List.mem_cons_self ..)).significantPart
      rw [List.map_cons, List.filter_cons, hrest, Function.comp_apply, hfirst,
        List.filterMap_cons]
      cases hline : statement.line? with
      | none => simp
      | some line => simp [line?_ne_nil hline]

end HackVm.Emit
