import HackVm.Proofs.Compilation.FirstFault

/-!
# A refused command leaves no trace

`Command.IsUnsupported` says which commands no code exists for, and these are exactly the ones that
are refused.  A refusal can come when the comment of the command is written already, and a writer
then has lines left over from a block that was never finished.

```text
command                 counters and function           lines left over
accepted                counted, function entered       none
refused                 as before                       the comment, if there are comments
```

What is left over never shows, as a writer gives what its session alone gives, and the session is
the one before the refused command.
-/

namespace HackVm

open Emit

/-! ## Commands without code -/

/-- No cell is known by the segment and the index, in a source of the given name. -/
def Segment.IsMissing (source : Option String) (word : String) (index : Int) : Prop :=
  word ∉ Segment.all.map Segment.word ∨
    (word = "pointer" ∧ index ≠ 0 ∧ index ≠ 1) ∨
    (word = "static" ∧ (source = none ∨ source = some ""))

instance (source : Option String) (word : String) (index : Int) :
    Decidable (Segment.IsMissing source word index) :=
  inferInstanceAs (Decidable (_ ∨ _ ∨ _))

/-- No code exists for the command: its operator or its cell is not known, or it stores into a
constant. -/
def Command.IsUnsupported (source : Option String) : Command → Prop
  | .arithmetic word => word ∉ Operator.all.map Operator.word
  | .push word index => Segment.IsMissing source word index
  | .pop word index => Segment.IsMissing source word index ∨ word = "constant"
  | _ => False

instance (source : Option String) : DecidablePred (Command.IsUnsupported source)
  | .arithmetic word => inferInstanceAs (Decidable (word ∉ Operator.all.map Operator.word))
  | .push word index => inferInstanceAs (Decidable (Segment.IsMissing source word index))
  | .pop word index =>
    inferInstanceAs (Decidable (Segment.IsMissing source word index ∨ word = "constant"))
  | .label _ => isFalse id
  | .goto _ => isFalse id
  | .ifGoto _ => isFalse id
  | .function _ _ => isFalse id
  | .call _ _ => isFalse id
  | .ret => isFalse id

theorem Operator.ofWord?_eq_none_iff {word : String} :
    Operator.ofWord? word = none ↔ word ∉ Operator.all.map Operator.word := by
  simp [Operator.ofWord?, List.find?_eq_none]

theorem Segment.ofWord?_eq_none_iff {word : String} :
    Segment.ofWord? word = none ↔ word ∉ Segment.all.map Segment.word := by
  simp [Segment.ofWord?, List.find?_eq_none]

theorem Segment.word_of_ofWord? {word : String} {segment : Segment}
    (h : Segment.ofWord? word = some segment) : segment.word = word := by
  have hfound := List.find?_some h
  exact beq_iff_eq.mp hfound

namespace Emit

private theorem filter_nonempty_eq_none_iff {source : Option String} :
    source.filter (!·.isEmpty) = none ↔ source = none ∨ source = some "" := by
  cases source with
  | none => simp
  | some name => simp [Option.filter]

/-- A cell of a known segment is missing if the index names no pointer or no source is current. -/
theorem locate_eq_error_iff {session : Session} {segment : Segment} {index : Int} :
    (∃ reason, session.locate segment index = .error reason) ↔
      Segment.IsMissing session.source segment.word index := by
  have hknown : segment.word ∈ Segment.all.map Segment.word :=
    List.mem_map_of_mem (Segment.mem_all segment)
  rw [Segment.IsMissing, or_iff_right (not_not_intro hknown)]
  cases segment with
  | pointer =>
      by_cases hzero : index = 0
      · simp [Session.locate, Segment.word, hzero]
      · by_cases hone : index = 1 <;> simp [Session.locate, Segment.word, hzero, hone]
  | static =>
      rw [← filter_nonempty_eq_none_iff]
      cases hsource : session.source.filter (!·.isEmpty) <;>
        simp [Session.locate, Segment.word, hsource]
  | _ => simp [Session.locate, Segment.word]

theorem locateWord_eq_error_iff {session : Session} {word : String} {index : Int} :
    (∃ reason, session.locateWord word index = .error reason) ↔
      Segment.IsMissing session.source word index := by
  unfold Session.locateWord
  cases hsegment : Segment.ofWord? word with
  | none =>
      have hunknown := Segment.ofWord?_eq_none_iff.mp hsegment
      exact iff_of_true ⟨_, rfl⟩ (.inl hunknown)
  | some segment =>
      rw [← Segment.word_of_ofWord? hsegment]
      exact locate_eq_error_iff

/-- Of the cells that are found, only constants cannot be stored into. -/
theorem popBlock?_eq_none_iff {session : Session} {word : String} {index : Int}
    {location : Location} (h : session.locateWord word index = .ok location) :
    popBlock? location = none ↔ word = "constant" := by
  obtain ⟨segment, hsegment, hlocates⟩ := locateWord_eq_ok_iff.mp h
  rw [← Segment.word_of_ofWord? hsegment]
  cases hlocates <;> simp [popBlock?, Segment.word]

/-- The commands without a block are the unsupported ones. -/
theorem block_eq_error_iff {session : Session} {command : Command} :
    (∃ reason, session.block command = .error reason) ↔
      command.IsUnsupported session.source := by
  cases command with
  | arithmetic word =>
      dsimp only [Session.block, Command.IsUnsupported]
      rw [← Operator.ofWord?_eq_none_iff]
      cases Operator.ofWord? word <;> simp
  | push word index =>
      dsimp only [Session.block, Command.IsUnsupported]
      rw [← locateWord_eq_error_iff]
      cases session.locateWord word index <;> simp
  | pop word index =>
      dsimp only [Session.block, Command.IsUnsupported]
      rw [← locateWord_eq_error_iff]
      cases hlocate : session.locateWord word index with
      | error reason => simp
      | ok location =>
          rw [← popBlock?_eq_none_iff hlocate]
          dsimp only
          cases popBlock? location <;> simp
  | _ => simp [Session.block, Command.IsUnsupported]

/-! ## Accepted or refused -/

section

variable {session : Session} {command : Command}
  (hdigits : ∀ number ∈ command.number?, number.natAbs < 10 ^ (Text.maxDigits - 1))

include hdigits

private theorem isWritable_command : command.isWritable = true := by
  rw [Command.isWritable, Option.all_eq_true]
  exact fun number hnumber => (isWritable_of_digits (hdigits number hnumber)).1

private theorem emit_eq_of_digits :
    session.emit command =
      match session.block command with
      | .error reason => (session, .error (session.refuse command reason))
      | .ok (next, block) =>
        (next, Session.checked (session.annotation command.text ++ block)) := by
  rw [Session.emit, isWritable_command hdigits, Bool.not_true, Bool.and_false]
  rfl

/-- An unsupported command is refused, and the session stays as it was. -/
theorem emit_of_isUnsupported (hcommand : command.IsUnsupported session.source) :
    ∃ refusal, session.emit command = (session, .error (.refused refusal)) := by
  obtain ⟨reason, hreason⟩ := block_eq_error_iff.mpr hcommand
  refine ⟨⟨reason, command, session.source.getD ""⟩, ?_⟩
  rw [emit_eq_of_digits hdigits, hreason]
  dsimp only
  rw [Session.refuse, if_pos (isWritable_command hdigits)]

/-- Any other command is emitted. -/
theorem emit_of_not_isUnsupported (hcommand : ¬ command.IsUnsupported session.source) :
    ∃ next statements, session.emit command = (next, .ok statements) := by
  cases hblock : session.block command with
  | error reason => exact absurd (block_eq_error_iff.mp ⟨reason, hblock⟩) hcommand
  | ok result =>
      obtain ⟨next, block⟩ := result
      refine ⟨next, session.annotation command.text ++ block, ?_⟩
      rw [emit_eq_of_digits hdigits, hblock]
      dsimp only
      rw [checked_append_comment, Session.checked, if_pos (isWritable_block hblock hdigits)]
      rfl

end

/-- Just the unsupported commands are refused.  A refused command leaves the session as it was, and
whatever is done later gives what it gives without the command.  Any other command gives its text;
comparisons and calls are counted, and of the rest only the function can be another. -/
theorem refused_command_leaves_no_trace (writer : Writer) (command : Command)
    (hdigits : ∀ number ∈ command.number?, number.natAbs < 10 ^ (Text.maxDigits - 1)) :
    ((∃ refusal, (writer.translate command).2 = .error (.refused refusal)) ↔
      command.IsUnsupported writer.session.source) ∧
    (command.IsUnsupported writer.session.source →
      (writer.translate command).1.session = writer.session ∧
        ∀ later, (writer.translate command).1.outputs later = writer.outputs later) ∧
    (¬ command.IsUnsupported writer.session.source →
      ∃ next text, writer.translate command = (next, .ok text) ∧
        next.session.comparisons =
          writer.session.comparisons + (if command.isComparison then 1 else 0) ∧
        next.session.calls = writer.session.calls + (if command.isCall then 1 else 0) ∧
        next.session.function = command.begun?.or writer.session.function ∧
        next.session.source = writer.session.source) := by
  have hwriter := writer.translate_eq command
  by_cases hcommand : command.IsUnsupported writer.session.source
  · obtain ⟨refusal, hemit⟩ := emit_of_isUnsupported hdigits hcommand
    rw [hemit] at hwriter
    refine ⟨iff_of_true ⟨refusal, hwriter.2⟩ hcommand, fun _ => ⟨hwriter.1, fun later => ?_⟩,
      absurd hcommand⟩
    rw [Writer.outputs_eq, Writer.outputs_eq, hwriter.1]
  · obtain ⟨next, statements, hemit⟩ := emit_of_not_isUnsupported hdigits hcommand
    rw [hemit] at hwriter
    have htext : (writer.translate command).2 = .ok (assembly statements) := hwriter.2
    refine ⟨iff_of_false ?_ hcommand, fun h => absurd h hcommand, fun _ => ?_⟩
    · rintro ⟨refusal, hrefused⟩
      exact absurd (htext.symm.trans hrefused) (by simp)
    · obtain ⟨body, hblock, -, -⟩ := emit_eq_ok hemit
      obtain ⟨hcomparisons, hcalls⟩ := emit_counters hemit
      refine ⟨(writer.translate command).1, assembly statements, Prod.ext rfl htext, ?_⟩
      rw [hwriter.1]
      exact ⟨hcomparisons, hcalls, block_function hblock, block_source hblock⟩

/-- A writer in the middle of a program, with a line of a block that failed before. -/
theorem refused_command_leaves_no_trace_sample :
    let writer : Writer := ⟨⟨true, 256, 3, 2, some "Main", some "Main.f"⟩, [.comment "neg"]⟩
    let refused := Command.pop "constant" 3
    let later := [.perform (.emit (.call "Main.g" 1)), .reset, .perform .bootstrap]
    (writer.translate refused).1 ≠ writer ∧
      refused.IsUnsupported writer.session.source ∧
      (writer.translate refused).1.outputs later = writer.outputs later ∧
      ¬ (Command.arithmetic "lt").IsUnsupported writer.session.source ∧
      ∃ next text, writer.translate (.arithmetic "lt") = (next, .ok text) ∧
        next.session.comparisons = 4 ∧ next.session.calls = 2 ∧
        next.session.function = some "Main.f" ∧ next.session.source = some "Main" := by
  intro writer refused later
  have hdigits : ∀ number ∈ refused.number?, number.natAbs < 10 ^ (Text.maxDigits - 1) := by
    intro number hnumber
    rw [← Option.some.inj hnumber]
    exact Nat.lt_of_lt_of_le (by decide) (Nat.pow_le_pow_right (by decide) (by decide : 1 ≤ _))
  have hrefused : refused.IsUnsupported writer.session.source := by decide
  have hnumber : ∀ number ∈ (Command.arithmetic "lt").number?,
      number.natAbs < 10 ^ (Text.maxDigits - 1) := by simp [Command.number?]
  have haccepted : ¬ (Command.arithmetic "lt").IsUnsupported writer.session.source := by decide
  refine ⟨by decide +kernel, hrefused, ?_, haccepted, ?_⟩
  · exact ((refused_command_leaves_no_trace writer refused hdigits).2.1 hrefused).2 later
  · exact (refused_command_leaves_no_trace writer (.arithmetic "lt") hnumber).2.2 haccepted

end Emit

end HackVm
