import HackVm.Proofs.Reading.Grammar
import Mathlib.Data.Nat.Digits.Lemmas

/-!
# Writing a command and reading it back

The source form of a command is its tokens with a space between them (`toList_text`), and these
tokens are the phrase that the grammar gives the command (`phrase_tokens`).  So a command that can
be written is read back, whatever blanks stand around it and whatever comment follows it, and the
commands that lines give can all be written (`isRenderable_of_readLine`).

Leading zeros and digits of other scripts are lost on the way: it is the command that comes back,
not the line.
-/

namespace HackVm

open Text

/-- A command that has a source form: its word is one token and names an operator where it has to,
and its number is a natural one of at most 4300 digits. -/
structure Command.IsRenderable (command : Command) : Prop where
  word : ∀ word, command.word? = some word → word ≠ "" ∧ IsWord word
  operator : ∀ word, command = .arithmetic word → ∃ operator : Operator, word = operator.word
  number : ∀ number, command.number? = some number →
    ∃ value : Nat, number = value ∧ (Nat.digits 10 value).length ≤ 4300

/-- The tokens of a command.  An operator stands alone, without the word of its kind. -/
def Command.tokens (command : Command) : List String :=
  (if command.kind = .arithmetic then [] else [command.kind.word]) ++ command.word?.toList ++
    (command.number?.map decimal).toList

theorem toList_text (command : Command) :
    command.text.toList = [' '].intercalate (command.tokens.map String.toList) := by
  cases command <;>
    simp [Command.text, Command.tokens, Command.kind, Kind.word, Command.word?, Command.number?,
      List.intercalate_cons_cons]

/-! ## Numbers within the limit -/

private theorem isWritable_natCast_iff {value : Nat} :
    isWritable value = true ↔ (Nat.digits 10 value).length ≤ maxDigits := by
  rw [isWritable, Int.natAbs_natCast, decide_eq_true_iff]
  -- The limit is kept closed: ten to its power is not to be computed.
  generalize maxDigits = limit
  exact (Nat.digits_length_le_iff (by decide) value).symm

theorem numeral_natural (value : Nat) : Numeral (natural value) value := by
  refine numeral_iff.mpr ⟨⟨?_, ?_⟩, ?_⟩
  · simpa using naturalDigits_ne_nil value
  · intro c hc
    exact isDecimalDigit_of_mem_naturalDigits (by simpa using hc)
  · rw [toList_natural, valueOf_digitValues_naturalDigits]

private theorem length_natural_le {value : Nat} (h : (Nat.digits 10 value).length ≤ 4300) :
    (natural value).length ≤ 4300 := by
  rw [← String.length_toList, toList_natural]
  exact length_naturalDigits_le (Int.natAbs_natCast value) (isWritable_natCast_iff.mpr h)

/-- The value of a numeral has no more digits than the numeral. -/
theorem Numeral.length_digits_le {word : String} {value : Nat} (h : Numeral word value) :
    (Nat.digits 10 value).length ≤ word.length := by
  obtain ⟨digits, -, hmap, rfl⟩ := h
  have hsmall : ∀ digit ∈ digits.reverse, digit < 10 := by
    intro digit hdigit
    have hmem : some digit ∈ word.toList.map digitValue? :=
      hmap ▸ List.mem_map_of_mem (List.mem_reverse.mp hdigit)
    obtain ⟨c, -, hc⟩ := List.mem_map.mp hmem
    exact digitValue?_lt hc
  have hlength : digits.reverse.length = word.length := by
    simpa [String.length_toList] using (congrArg List.length hmap).symm
  rw [Nat.digits_length_le_iff (by decide), ← hlength]
  exact Nat.ofDigits_lt_base_pow_length (by decide) hsmall

/-! ## Commands that can be written -/

theorem Command.IsRenderable.isWritable {command : Command} (h : command.IsRenderable) :
    command.isWritable = true := by
  rw [Command.isWritable]
  cases hnumber : command.number? with
  | none => rfl
  | some number =>
      obtain ⟨value, rfl, hlength⟩ := h.number number hnumber
      rw [Option.all_some]
      exact isWritable_natCast_iff.mpr hlength

theorem render_of_isRenderable {command : Command} (h : command.IsRenderable) :
    command.render = .ok command.text := by
  rw [Command.render, if_pos h.isWritable]

private theorem phrase_number {word : String} {build : String → Int → Command}
    (hword : NumberWord word build) (name : String) {number : Int}
    (hnumber : ∃ value : Nat, number = value ∧ (Nat.digits 10 value).length ≤ 4300) :
    Phrase [word, name, decimal number] (build name number) := by
  obtain ⟨value, rfl, hlength⟩ := hnumber
  rw [decimal_natCast]
  exact .number hword name (numeral_natural value) (length_natural_le hlength)

/-- The tokens of a command are the phrase that the grammar gives it. -/
theorem phrase_tokens {command : Command} (h : command.IsRenderable) :
    Phrase command.tokens command := by
  cases command with
  | arithmetic word =>
      obtain ⟨operator, rfl⟩ := h.operator word rfl
      exact .operator operator
  | push segment index => exact phrase_number .push segment (h.number index rfl)
  | pop segment index => exact phrase_number .pop segment (h.number index rfl)
  | label name => exact .name .label name
  | goto name => exact .name .goto name
  | ifGoto name => exact .name .ifGoto name
  | function name locals => exact phrase_number .function name (h.number locals rfl)
  | call name arguments => exact phrase_number .call name (h.number arguments rfl)
  | ret => exact .ret

private theorem isWord_kind (kind : Kind) : kind.word ≠ "" ∧ IsWord kind.word := by
  cases kind <;> decide +kernel

private theorem decimal_ne_empty (number : Int) : decimal number ≠ "" := by
  intro hempty
  have hlist := congrArg String.toList hempty
  unfold decimal at hlist
  split at hlist
  · simp at hlist
  · exact naturalDigits_ne_nil _ (by simpa using hlist)

theorem isWord_of_mem_tokens {command : Command} (h : command.IsRenderable) {token : String}
    (htoken : token ∈ command.tokens) : token ≠ "" ∧ IsWord token := by
  rcases List.mem_append.mp htoken with htoken | hnumber
  · rcases List.mem_append.mp htoken with hkind | hword
    · split at hkind
      · exact absurd hkind (by simp)
      · rw [List.mem_singleton.mp hkind]
        exact isWord_kind command.kind
    · exact h.word token (Option.mem_toList.mp hword)
  · obtain ⟨number, -, rfl⟩ := Option.map_eq_some_iff.mp (Option.mem_toList.mp hnumber)
    exact ⟨decimal_ne_empty number, isWord_decimal number⟩

/-! ## Lines around a command -/

/-- Tokens with a space between them have no comment mark. -/
private theorem not_isInfix_intercalate {runs : List (List Char)}
    (hruns : ∀ run ∈ runs, ¬ commentMark <:+: run) :
    ¬ commentMark <:+: [' '].intercalate runs := by
  induction runs with
  | nil => simp [commentMark]
  | cons run rest ih =>
      have hrest := ih fun later hlater => hruns later (List.mem_cons_of_mem _ hlater)
      cases rest with
      | nil => simpa using hruns run (List.mem_cons_self ..)
      | cons next rest =>
          rw [List.intercalate_cons_cons, List.append_assoc]
          exact not_isInfix_append_cons (by decide) (hruns run (List.mem_cons_self ..)) hrest

private theorem head?_text {command : Command} (h : command.IsRenderable) :
    command.text.toList.head? ≠ some '/' := by
  cases command with
  | arithmetic word =>
      obtain ⟨operator, rfl⟩ := h.operator word rfl
      cases operator <;> decide
  | _ => simp [Command.text]

private theorem text_ne_nil {command : Command} (h : command.IsRenderable) :
    command.text.toList ≠ [] := by
  cases command with
  | arithmetic word => exact fun hempty => (h.word word rfl).1 (String.toList_eq_nil_iff.mp hempty)
  | _ => simp [Command.text]

private theorem ne_slash_of_isBlank {c : Char} (hc : isBlank c = true) : c ≠ '/' := by
  rintro rfl
  exact absurd hc (by decide)

/-- The last slash of a command is kept from a comment by a blank. -/
private theorem getLast?_append_text {command : Command} (h : command.IsRenderable)
    {after : String} (hafter : ∀ c ∈ after.toList, isBlank c = true)
    (hborder : command.text.toList.getLast? = some '/' → after ≠ "") (front : List Char) :
    (front ++ command.text.toList ++ after.toList).getLast? ≠ some '/' := by
  intro hlast
  -- The last character is the command's own, or a blank after it.
  by_cases hempty : after.toList = []
  · rw [hempty, List.append_nil, List.getLast?_append_of_ne_nil _ (text_ne_nil h)] at hlast
    exact hborder hlast (String.toList_eq_nil_iff.mp hempty)
  · rw [List.getLast?_append_of_ne_nil _ hempty] at hlast
    exact ne_slash_of_isBlank (hafter '/' (List.mem_of_getLast? hlast)) rfl

section Surroundings

variable {command : Command} (h : command.IsRenderable) {before after comment : String}
  (hbefore : ∀ c ∈ before.toList, isBlank c = true) (hafter : ∀ c ∈ after.toList, isBlank c = true)
include h hbefore hafter

private theorem not_isInfix_surrounded :
    ¬ commentMark <:+: before.toList ++ command.text.toList ++ after.toList := by
  have htext : ¬ commentMark <:+: command.text.toList := by
    rw [toList_text]
    refine not_isInfix_intercalate fun run hrun => ?_
    obtain ⟨token, htoken, rfl⟩ := List.mem_map.mp hrun
    exact (isWord_of_mem_tokens h htoken).2.2
  have hblank : ∀ gap : String, (∀ c ∈ gap.toList, isBlank c = true) →
      ¬ commentMark <:+: gap.toList :=
    fun gap hgap => not_isInfix_of_forall_ne fun c hc => ne_slash_of_isBlank (hgap c hc)
  refine not_isInfix_append (not_isInfix_append (hblank before hbefore) htext (head?_text h))
    (hblank after hafter) fun hhead => ?_
  exact ne_slash_of_isBlank (hafter '/' (List.mem_of_mem_head? hhead)) rfl

theorem lineTokens_surrounded (hcomment : comment = "" ∨ commentMark <+: comment.toList)
    (hborder : comment ≠ "" → command.text.toList.getLast? = some '/' → after ≠ "") :
    LineTokens (before ++ command.text ++ after ++ comment) command.tokens := by
  refine ⟨before.toList ++ command.text.toList ++ after.toList, ?_, ?_⟩
  · rw [String.toList_append, String.toList_append, String.toList_append]
    refine isFront_append (not_isInfix_surrounded h hbefore hafter) ?_ fun hne => ?_
    · exact hcomment.imp_left String.toList_eq_nil_iff.mpr
    · exact getLast?_append_text h hafter
        (hborder fun hempty => hne (String.toList_eq_nil_iff.mpr hempty)) _
  · have hruns : Runs command.text.toList (command.tokens.map String.toList) := by
      rw [toList_text]
      refine runs_intercalate fun run hrun => ?_
      obtain ⟨token, htoken, rfl⟩ := List.mem_map.mp hrun
      obtain ⟨hne, hword⟩ := isWord_of_mem_tokens h htoken
      exact ⟨fun hempty => hne (String.toList_eq_nil_iff.mp hempty), hword.1⟩
    exact (hruns.blanks_append hbefore).append_blanks hafter

/-- A command that can be written is read back from any line that holds it. -/
theorem readLine_surrounded (hcomment : comment = "" ∨ commentMark <+: comment.toList)
    (hborder : comment ≠ "" → command.text.toList.getLast? = some '/' → after ≠ "")
    (source : String) (number : Int) :
    readLine source number (before ++ command.text ++ after ++ comment) = .ok (some command) :=
  readLine_eq_ok_iff.mpr (read_of_meaning (lineTokens_surrounded h hbefore hafter hcomment hborder)
    (.phrase (phrase_tokens h)))

end Surroundings

theorem readLine_text {command : Command} (h : command.IsRenderable) (source : String)
    (number : Int) : readLine source number command.text = .ok (some command) := by
  have hread := @readLine_surrounded command h "" "" "" (by simp) (by simp) (Or.inl rfl)
    (fun hne => absurd rfl hne) source number
  simpa using hread

/-! ## Commands of lines -/

theorem isRenderable_of_phrase {tokens : List String} {command : Command}
    (h : Phrase tokens command) (htokens : ∀ token ∈ tokens, token ≠ "" ∧ IsWord token) :
    command.IsRenderable := by
  cases h with
  | operator operator =>
      have hword := htokens operator.word (by simp)
      refine ⟨fun _ h => Option.some.inj h ▸ hword, fun _ h => ?_, nofun⟩
      exact ⟨operator, (Command.arithmetic.inj h).symm⟩
  | ret => exact ⟨nofun, nofun, nofun⟩
  | name hword name =>
      have hname := htokens name (by simp)
      cases hword <;> exact ⟨fun _ h => Option.some.inj h ▸ hname, nofun, nofun⟩
  | number hword name hnumeral hlimit =>
      have hname := htokens name (by simp)
      have hlength := hnumeral.length_digits_le.trans hlimit
      cases hword <;>
        exact ⟨fun _ h => Option.some.inj h ▸ hname, nofun,
          fun _ h => ⟨_, (Option.some.inj h).symm, hlength⟩⟩

theorem isRenderable_of_readLine {source line : String} {number : Int} {command : Command}
    (h : readLine source number line = .ok (some command)) : command.IsRenderable := by
  have hphrase : Phrase (Line.words line) command :=
    (readLine_eq_command_iff (lineTokens_iff.mpr rfl)).mp h
  exact isRenderable_of_phrase hphrase fun token => isWord_of_mem_words

/-- Writing and reading undo each other.  A command that a line gave is written and read back as
itself, a command that can be written is read back from any line that holds it between blanks and
before a comment, and so two commands that lines gave are the same if they are written alike. -/
theorem render_readLine_inverse :
    (∀ source number line command, readLine source number line = .ok (some command) →
      ∃ text, command.render = .ok text ∧
        ∀ place other, readLine place other text = .ok (some command)) ∧
    (∀ command : Command, command.IsRenderable → ∃ text, command.render = .ok text ∧
      ∀ before after comment : String,
        (∀ c ∈ before.toList, isBlank c = true) → (∀ c ∈ after.toList, isBlank c = true) →
        (comment = "" ∨ commentMark <+: comment.toList) →
        (comment ≠ "" → text.toList.getLast? = some '/' → after ≠ "") →
        ∀ source number,
          readLine source number (before ++ text ++ after ++ comment) = .ok (some command)) ∧
    (∀ first second : Command,
      (∃ source number line, readLine source number line = .ok (some first)) →
      (∃ source number line, readLine source number line = .ok (some second)) →
      first.render = second.render → first = second) := by
  refine ⟨?_, ?_, ?_⟩
  · intro source number line command h
    have hrenderable := isRenderable_of_readLine h
    exact ⟨_, render_of_isRenderable hrenderable, readLine_text hrenderable⟩
  · intro command h
    refine ⟨_, render_of_isRenderable h, ?_⟩
    intro before after comment hbefore hafter hcomment hborder
    exact readLine_surrounded h hbefore hafter hcomment hborder
  · rintro first second ⟨_, _, _, hfirst⟩ ⟨_, _, _, hsecond⟩ hrender
    have h₁ := isRenderable_of_readLine hfirst
    have h₂ := isRenderable_of_readLine hsecond
    rw [render_of_isRenderable h₁, render_of_isRenderable h₂] at hrender
    have hread := readLine_text h₁ "" 0
    rw [Except.ok.inj hrender, readLine_text h₂] at hread
    exact (Option.some.inj (Except.ok.inj hread)).symm

/-- The first command loses its zeros and its script, and the second ends in a slash, which a blank
keeps from the comment. -/
theorem render_readLine_inverse_sample :
    readLine "Main" 1 "push constant ٠٠٧ // seven" = .ok (some (.push "constant" 7)) ∧
      readLine "" 0 "push constant 7" = .ok (some (.push "constant" 7)) ∧
      readLine "Main" 2 "\tlabel a/\u3000//x" = .ok (some (.label "a/")) := by
  obtain ⟨hback, hsurrounded, -⟩ := render_readLine_inverse
  have hline : readLine "Main" 1 "push constant ٠٠٧ // seven" =
      .ok (some (.push "constant" 7)) := by decide +kernel
  obtain ⟨text, hrender, hread⟩ := hback _ _ _ _ hline
  obtain rfl : "push constant 7" = text := by
    have htext : (Command.push "constant" 7).render = .ok "push constant 7" := by decide +kernel
    rw [htext] at hrender
    exact Except.ok.inj hrender
  have hlabel : (Command.label "a/").IsRenderable :=
    ⟨fun _ h => Option.some.inj h ▸ by decide +kernel, nofun, nofun⟩
  obtain ⟨other, hother, hsurround⟩ := hsurrounded _ hlabel
  obtain rfl : "label a/" = other := Except.ok.inj hother
  have hbefore : ∀ c ∈ "\t".toList, isBlank c = true := List.all_eq_true.mp (by decide +kernel)
  have hafter : ∀ c ∈ "\u3000".toList, isBlank c = true :=
    List.all_eq_true.mp (by decide +kernel)
  refine ⟨hline, hread "" 0, ?_⟩
  exact hsurround "\t" "\u3000" "//x" hbefore hafter (Or.inr (by decide +kernel))
    (fun _ _ => by decide) "Main" 2

end HackVm
