import HackVm.Proofs.Text.Numerals
import HackVm.Proofs.Text.Tokens
import Mathlib.Data.Nat.Digits.Defs

/-!
# The grammar of source lines

A line is read by its tokens alone.  The grammar is written down here as relations on lists of
tokens, none of which mentions the reader:

```text
Phrase tokens command          the tokens are a command
Oversized tokens length        they would be one, but its number has `length` digits, over the limit
Flawed tokens token flaw       they are none; `token` is to blame
```

`Meaning` puts the three together with the empty line, and is total (`exists_meaning`).  The reader
follows it case by case (`read_of_meaning`), so it accepts exactly the phrases and tells the
failures apart exactly as the relations do (`readLine_follows_grammar`).
-/

namespace HackVm

open Text

/-! ## Numerals -/

/-- A word of decimal digits, at least one and of any mix of scripts, and its value in base ten. -/
def Numeral (word : String) (value : Nat) : Prop :=
  ∃ digits : List Nat, digits ≠ [] ∧ word.toList.map digitValue? = digits.map some ∧
    value = Nat.ofDigits 10 digits.reverse

theorem valueOf_eq_ofDigits (digits : List Nat) :
    valueOf 10 digits = Nat.ofDigits 10 digits.reverse := by
  rw [Nat.ofDigits_eq_foldr, List.foldr_reverse, valueOf]
  simp [Nat.mul_comm, Nat.add_comm]

private theorem map_digitValue? {text : List Char} (htext : ∀ c ∈ text, isDecimalDigit c = true) :
    text.map digitValue? = (digitValues text).map some := by
  induction text with
  | nil => rfl
  | cons c rest ih =>
      obtain ⟨value, hvalue⟩ := Option.isSome_iff_exists.mp (htext c (List.mem_cons_self ..))
      have hrest := ih fun d hd => htext d (List.mem_cons_of_mem _ hd)
      rw [digitValues] at hrest ⊢
      rw [List.map_cons, List.filterMap_cons_some hvalue, List.map_cons, hvalue, hrest]

private theorem digitValues_of_map {text : List Char} {digits : List Nat}
    (h : text.map digitValue? = digits.map some) : digitValues text = digits := by
  calc digitValues text = (text.map digitValue?).filterMap id := by
        rw [digitValues, List.filterMap_map, Function.id_comp]
    _ = digits := by rw [h, List.filterMap_map]; simp

theorem numeral_iff {word : String} {value : Nat} :
    Numeral word value ↔ (word.toList ≠ [] ∧ ∀ c ∈ word.toList, isDecimalDigit c = true) ∧
      value = valueOf 10 (digitValues word.toList) := by
  constructor
  · rintro ⟨digits, hne, hmap, rfl⟩
    refine ⟨⟨?_, ?_⟩, by rw [digitValues_of_map hmap, valueOf_eq_ofDigits]⟩
    · intro hempty
      rw [hempty, List.map_nil] at hmap
      exact hne (List.map_eq_nil_iff.mp hmap.symm)
    · intro c hc
      have hmem : digitValue? c ∈ digits.map some := hmap ▸ List.mem_map_of_mem hc
      obtain ⟨digit, -, hdigit⟩ := List.mem_map.mp hmem
      exact Option.isSome_iff_exists.mpr ⟨digit, hdigit.symm⟩
  · rintro ⟨⟨hne, hdigits⟩, rfl⟩
    refine ⟨digitValues word.toList, ?_, map_digitValue? hdigits, valueOf_eq_ofDigits _⟩
    intro hempty
    have hlength := length_digitValues hdigits
    rw [hempty] at hlength
    exact hne (List.eq_nil_of_length_eq_zero hlength.symm)

theorem readNaturalWord_of_numeral {word : String} {value : Nat} (h : Numeral word value) :
    Line.readNaturalWord word =
      if 4300 < word.length then .error (.number (.tooManyDigits word.length))
      else .ok (value : Int) := by
  obtain ⟨⟨hne, hdigits⟩, rfl⟩ := numeral_iff.mp h
  have hword : (!word.isEmpty && word.toList.all isDecimalDigit) = true := by
    have hnonempty : word ≠ "" := fun hempty => hne (String.toList_eq_nil_iff.mpr hempty)
    simpa [hnonempty] using hdigits
  rw [Line.readNaturalWord, if_pos hword, readInt_digits hne hdigits, String.length_toList]
  by_cases hlimit : 4300 < word.length
  · rw [if_pos hlimit, if_pos (show maxDigits < word.length from hlimit)]
    rfl
  · rw [if_neg hlimit, if_neg (show ¬ maxDigits < word.length from hlimit)]
    rfl

theorem readNaturalWord_of_not_numeral {word : String} (h : ∀ value, ¬ Numeral word value) :
    Line.readNaturalWord word = .error (.flaw (.notNatural word)) := by
  have hword : ¬ (!word.isEmpty && word.toList.all isDecimalDigit) = true := by
    intro hword
    obtain ⟨hempty, hdigits⟩ := Bool.and_eq_true_iff.mp hword
    have hne : word.toList ≠ [] := by simpa using hempty
    exact h _ (numeral_iff.mpr ⟨⟨hne, by simpa using hdigits⟩, rfl⟩)
  rw [Line.readNaturalWord, if_neg hword]

/-! ## The grammar -/

/-- The words that one name follows, with the commands they make. -/
inductive NameWord : String → (String → Command) → Prop
  | label : NameWord "label" .label
  | goto : NameWord "goto" .goto
  | ifGoto : NameWord "if-goto" .ifGoto

/-- The words that a name and a number follow, with the commands they make. -/
inductive NumberWord : String → (String → Int → Command) → Prop
  | push : NumberWord "push" .push
  | pop : NumberWord "pop" .pop
  | function : NumberWord "function" .function
  | call : NumberWord "call" .call

/-- The words that begin a command other than an operator, with the number of tokens after them. -/
inductive CommandWord : String → Nat → Prop
  | ret : CommandWord "return" 0
  | name {word : String} {build : String → Command} (hword : NameWord word build) :
      CommandWord word 1
  | number {word : String} {build : String → Int → Command} (hword : NumberWord word build) :
      CommandWord word 2

/-- The lists of tokens that are commands. -/
inductive Phrase : List String → Command → Prop
  | operator (operator : Operator) : Phrase [operator.word] (.arithmetic operator.word)
  | ret : Phrase ["return"] .ret
  | name {word : String} {build : String → Command} (hword : NameWord word build)
      (name : String) : Phrase [word, name] (build name)
  | number {word digits : String} {build : String → Int → Command} {value : Nat}
      (hword : NumberWord word build) (name : String) (hnumeral : Numeral digits value)
      (hlimit : digits.length ≤ 4300) : Phrase [word, name, digits] (build name value)

/-- Tokens of the shape of a command whose number has `length` digits, more than can be read. -/
inductive Oversized : List String → Nat → Prop
  | number {word digits : String} {build : String → Int → Command} {value : Nat}
      (hword : NumberWord word build) (name : String) (hnumeral : Numeral digits value)
      (hlimit : 4300 < digits.length) : Oversized [word, name, digits] digits.length

/-- Tokens that have not the shape of a command, with the token to blame. -/
inductive Flawed : List String → String → Flaw → Prop
  | operands (operator : Operator) (second : String) (more : List String) :
      Flawed (operator.word :: second :: more) second (.operands operator.word second)
  | unknownWord {first : String} (hoperator : ∀ operator : Operator, first ≠ operator.word)
      (hword : ∀ count, ¬ CommandWord first count) (more : List String) :
      Flawed (first :: more) first (.unknownWord first)
  | wrongCount {first : String} {count : Nat} {more : List String}
      (hword : CommandWord first count) (hcount : more.length ≠ count) :
      Flawed (first :: more) first (.wrongCount first count more.length)
  | notNatural {first third : String} {build : String → Int → Command}
      (hword : NumberWord first build) (second : String) (hthird : ∀ value, ¬ Numeral third value) :
      Flawed [first, second, third] third (.notNatural third)

/-- What a list of tokens is read as. -/
inductive Meaning : List String → Except LineFault (Option Command) → Prop
  | nothing : Meaning [] (.ok none)
  | phrase {tokens : List String} {command : Command} (h : Phrase tokens command) :
      Meaning tokens (.ok (some command))
  | oversized {tokens : List String} {length : Nat} (h : Oversized tokens length) :
      Meaning tokens (.error (.number (.tooManyDigits length)))
  | flawed {tokens : List String} {token : String} {flaw : Flaw} (h : Flawed tokens token flaw) :
      Meaning tokens (.error (.flaw flaw))

/-! ## Every list of tokens has a meaning -/

private theorem word_of_ofWord? {word : String} {operator : Operator}
    (h : Operator.ofWord? word = some operator) : word = operator.word := by
  have hfound := List.find?_some h
  exact (beq_iff_eq.mp hfound).symm

private theorem kind_of_ofWord? {word : String} {kind : Kind} (h : Kind.ofWord? word = some kind) :
    word = kind.word := by
  have hfound := List.find?_some h
  exact (beq_iff_eq.mp hfound).symm

private theorem exists_meaning_name {word : String} {build : String → Command}
    (hword : NameWord word build) (operands : List String) :
    ∃ result, Meaning (word :: operands) result := by
  match operands with
  | [name] => exact ⟨_, .phrase (.name hword name)⟩
  | [] => exact ⟨_, .flawed (.wrongCount (.name hword) (by simp))⟩
  | first :: second :: more => exact ⟨_, .flawed (.wrongCount (.name hword) (by simp))⟩

private theorem exists_meaning_number {word : String} {build : String → Int → Command}
    (hword : NumberWord word build) (operands : List String) :
    ∃ result, Meaning (word :: operands) result := by
  match operands with
  | [name, digits] =>
      by_cases hnumeral : ∃ value, Numeral digits value
      · obtain ⟨value, hvalue⟩ := hnumeral
        by_cases hlimit : digits.length ≤ 4300
        · exact ⟨_, .phrase (.number hword name hvalue hlimit)⟩
        · exact ⟨_, .oversized (.number hword name hvalue (Nat.lt_of_not_le hlimit))⟩
      · exact ⟨_, .flawed (.notNatural hword name fun value h => hnumeral ⟨value, h⟩)⟩
  | [] => exact ⟨_, .flawed (.wrongCount (.number hword) (by simp))⟩
  | [first] => exact ⟨_, .flawed (.wrongCount (.number hword) (by simp))⟩
  | first :: second :: third :: more =>
      exact ⟨_, .flawed (.wrongCount (.number hword) (by simp))⟩

theorem exists_meaning (tokens : List String) : ∃ result, Meaning tokens result := by
  match tokens with
  | [] => exact ⟨_, .nothing⟩
  | first :: more =>
      -- An operator is blamed for its second token, so it is told from the other words first.
      by_cases hoperator : ∃ operator : Operator, first = operator.word
      · obtain ⟨operator, rfl⟩ := hoperator
        match more with
        | [] => exact ⟨_, .phrase (.operator operator)⟩
        | second :: rest => exact ⟨_, .flawed (.operands operator second rest)⟩
      · by_cases hword : ∃ count, CommandWord first count
        · obtain ⟨count, hcount⟩ := hword
          cases hcount with
          | ret =>
              match more with
              | [] => exact ⟨_, .phrase .ret⟩
              | second :: rest => exact ⟨_, .flawed (.wrongCount .ret (by simp))⟩
          | name hname => exact exists_meaning_name hname more
          | number hnumber => exact exists_meaning_number hnumber more
        · exact ⟨_, .flawed (.unknownWord (fun operator h => hoperator ⟨operator, h⟩)
            (fun count h => hword ⟨count, h⟩) more)⟩

/-! ## The reader follows the grammar -/

theorem NameWord.command_eq {word : String} {build : String → Command} (h : NameWord word build)
    (operands : List String) : Line.command word operands = Line.withName word build operands := by
  cases h <;> rfl

theorem NumberWord.command_eq {word : String} {build : String → Int → Command}
    (h : NumberWord word build) (operands : List String) :
    Line.command word operands = Line.withNameAndNumber word build operands := by
  cases h <;> rfl

private theorem command_of_phrase {first : String} {more : List String} {command : Command}
    (h : Phrase (first :: more) command) : Line.command first more = .ok command := by
  cases h with
  | operator operator => simp [Line.command]
  | ret => rfl
  | name hword name => rw [hword.command_eq, Line.withName]
  | number hword name hnumeral hlimit =>
      rw [hword.command_eq, Line.withNameAndNumber, readNaturalWord_of_numeral hnumeral,
        if_neg (Nat.not_lt.mpr hlimit)]
      rfl

private theorem command_of_oversized {first : String} {more : List String} {length : Nat}
    (h : Oversized (first :: more) length) :
    Line.command first more = .error (.number (.tooManyDigits length)) := by
  cases h with
  | number hword name hnumeral hlimit =>
      rw [hword.command_eq, Line.withNameAndNumber, readNaturalWord_of_numeral hnumeral,
        if_pos hlimit]
      rfl

private theorem command_of_wrongCount {first : String} {count : Nat} {more : List String}
    (hword : CommandWord first count) (hcount : more.length ≠ count) :
    Line.command first more = .error (.flaw (.wrongCount first count more.length)) := by
  cases hword with
  | ret =>
      match more with
      | [] => exact absurd rfl hcount
      | second :: rest => rfl
  | name hname =>
      rw [hname.command_eq, Line.withName]
      rintro name rfl
      exact hcount rfl
  | number hnumber =>
      rw [hnumber.command_eq, Line.withNameAndNumber]
      rintro name number rfl
      exact hcount rfl

private theorem command_of_unknownWord {first : String}
    (hoperator : ∀ operator : Operator, first ≠ operator.word)
    (hword : ∀ count, ¬ CommandWord first count) (more : List String) :
    Line.command first more = .error (.flaw (.unknownWord first)) := by
  have hnone : Operator.ofWord? first = none := by
    cases hfound : Operator.ofWord? first with
    | none => rfl
    | some operator => exact absurd (word_of_ofWord? hfound) (hoperator operator)
  unfold Line.command
  rw [hnone]
  dsimp only
  cases hkind : Kind.ofWord? first with
  | none => rfl
  | some kind =>
      -- The word of the operators' kind is no command word, and all the others are.
      obtain rfl := kind_of_ofWord? hkind
      cases kind with
      | arithmetic => rfl
      | push => exact absurd (.number .push) (hword 2)
      | pop => exact absurd (.number .pop) (hword 2)
      | label => exact absurd (.name .label) (hword 1)
      | goto => exact absurd (.name .goto) (hword 1)
      | ifGoto => exact absurd (.name .ifGoto) (hword 1)
      | function => exact absurd (.number .function) (hword 2)
      | call => exact absurd (.number .call) (hword 2)
      | ret => exact absurd .ret (hword 0)

private theorem command_of_flawed {first token : String} {more : List String} {flaw : Flaw}
    (h : Flawed (first :: more) token flaw) : Line.command first more = .error (.flaw flaw) := by
  cases h with
  | operands operator second more => simp [Line.command]
  | unknownWord hoperator hword => exact command_of_unknownWord hoperator hword more
  | wrongCount hword hcount => exact command_of_wrongCount hword hcount
  | notNatural hword second hthird =>
      rw [hword.command_eq, Line.withNameAndNumber, readNaturalWord_of_not_numeral hthird]
      rfl

theorem read_of_meaning {line : String} {tokens : List String}
    {result : Except LineFault (Option Command)} (htokens : LineTokens line tokens)
    (h : Meaning tokens result) : Line.read line = result := by
  rw [Line.read, lineTokens_iff.mp htokens]
  cases h with
  | nothing => rfl
  | phrase h =>
      cases tokens with
      | nil => nomatch h
      | cons first more => exact congrArg (Except.map some) (command_of_phrase h)
  | oversized h =>
      cases tokens with
      | nil => nomatch h
      | cons first more => exact congrArg (Except.map some) (command_of_oversized h)
  | flawed h =>
      cases tokens with
      | nil => nomatch h
      | cons first more => exact congrArg (Except.map some) (command_of_flawed h)

/-- The reader computes what the tokens mean. -/
theorem read_iff_meaning {line : String} {tokens : List String}
    {result : Except LineFault (Option Command)} (htokens : LineTokens line tokens) :
    Line.read line = result ↔ Meaning tokens result := by
  constructor
  · rintro rfl
    obtain ⟨result, hresult⟩ := exists_meaning tokens
    rwa [read_of_meaning htokens hresult]
  · exact read_of_meaning htokens

/-! ## Lines of a source -/

theorem readLine_eq_ok_iff {source line : String} {number : Int} {found : Option Command} :
    readLine source number line = .ok found ↔ Line.read line = .ok found := by
  unfold readLine
  cases Line.read line with
  | ok other => simp [Except.mapError]
  | error fault => simp [Except.mapError]

theorem readLine_eq_nothing_iff {source line : String} {number : Int} {tokens : List String}
    (htokens : LineTokens line tokens) : readLine source number line = .ok none ↔ tokens = [] := by
  rw [readLine_eq_ok_iff, read_iff_meaning htokens]
  constructor
  · intro h
    cases h
    rfl
  · rintro rfl
    exact .nothing

theorem readLine_eq_command_iff {source line : String} {number : Int} {tokens : List String}
    {command : Command} (htokens : LineTokens line tokens) :
    readLine source number line = .ok (some command) ↔ Phrase tokens command := by
  rw [readLine_eq_ok_iff, read_iff_meaning htokens]
  constructor
  · intro h
    cases h with
    | phrase h => exact h
  · exact .phrase

private theorem readLine_eq_number_iff {source line : String} {number : Int}
    {error : NumberError} :
    readLine source number line = .error (.number error) ↔
      Line.read line = .error (.number error) := by
  unfold readLine
  cases Line.read line with
  | ok other => simp [Except.mapError]
  | error fault => cases fault <;> simp [Except.mapError, LineFault.at]

theorem readLine_eq_malformed_iff {source line : String} {number : Int}
    {malformed : Malformed} :
    readLine source number line = .error (.malformed malformed) ↔
      ∃ flaw, Line.read line = .error (.flaw flaw) ∧
        malformed = ⟨flaw, source, number, Line.withoutFeeds line⟩ := by
  unfold readLine
  cases Line.read line with
  | ok other => simp [Except.mapError]
  | error fault => cases fault <;> simp [Except.mapError, LineFault.at, eq_comm]

theorem Flawed.token_eq {tokens : List String} {token : String} {flaw : Flaw}
    (h : Flawed tokens token flaw) : flaw.token = token := by
  cases h <;> rfl

/-- A line is read exactly as its tokens say.  No token is an insignificant line, a phrase of the
grammar is its command, and a number over the limit is an error of its own.  Everything else is
malformed, with the place it was found at and the token that is to blame. -/
theorem readLine_follows_grammar (source : String) (number : Int) (line : String) :
    (∃ tokens, LineTokens line tokens) ∧
      ∀ tokens, LineTokens line tokens →
        (readLine source number line = .ok none ↔ tokens = []) ∧
        (∀ command, readLine source number line = .ok (some command) ↔ Phrase tokens command) ∧
        (∀ error, readLine source number line = .error (.number error) ↔
          ∃ length, Oversized tokens length ∧ error = .tooManyDigits length) ∧
        (∀ malformed, readLine source number line = .error (.malformed malformed) ↔
          ∃ token, Flawed tokens token malformed.flaw ∧ malformed.flaw.token = token ∧
            malformed.source = source ∧ malformed.number = number ∧
            malformed.line = Line.withoutFeeds line) ∧
        (tokens ≠ [] → (∀ command, ¬ Phrase tokens command) →
          (∀ length, ¬ Oversized tokens length) →
          ∃ malformed, readLine source number line = .error (.malformed malformed)) := by
  refine ⟨⟨_, lineTokens_iff.mpr rfl⟩, fun tokens htokens => ⟨?_, ?_, ?_, ?_, ?_⟩⟩
  · exact readLine_eq_nothing_iff htokens
  · exact fun command => readLine_eq_command_iff htokens
  · intro error
    rw [readLine_eq_number_iff, read_iff_meaning htokens]
    constructor
    · intro h
      cases h with
      | oversized h => exact ⟨_, h, rfl⟩
    · rintro ⟨length, h, rfl⟩
      exact .oversized h
  · intro malformed
    rw [readLine_eq_malformed_iff]
    constructor
    · rintro ⟨flaw, hread, rfl⟩
      cases (read_iff_meaning htokens).mp hread with
      | flawed h => exact ⟨_, h, h.token_eq, rfl, rfl, rfl⟩
    · obtain ⟨flaw, place, other, text⟩ := malformed
      rintro ⟨token, h, -, rfl, rfl, rfl⟩
      exact ⟨flaw, read_of_meaning htokens (.flawed h), rfl⟩
  · intro hne hphrase hoversized
    obtain ⟨result, hresult⟩ := exists_meaning tokens
    cases hresult with
    | nothing => exact absurd rfl hne
    | phrase h => exact absurd h (hphrase _)
    | oversized h => exact absurd h (hoversized _)
    | flawed h =>
        have hread := read_of_meaning htokens (.flawed h)
        exact ⟨_, readLine_eq_malformed_iff.mpr ⟨_, hread, rfl⟩⟩

/-- The blank after the first word is a no-break space, the digits are of two scripts, and the
comment begins at the first of three slashes. -/
theorem readLine_follows_grammar_sample :
    LineTokens "\tpush\u00a0a/b ٤2/// c" ["push", "a/b", "٤2"] ∧
      readLine "Main" 3 "\tpush\u00a0a/b ٤2/// c" = .ok (some (.push "a/b" 42)) := by
  have htokens : LineTokens "\tpush\u00a0a/b ٤2/// c" ["push", "a/b", "٤2"] :=
    lineTokens_iff.mpr (by decide +kernel)
  have hnumeral : Numeral "٤2" 42 := ⟨[4, 2], by decide, by decide, by decide⟩
  obtain ⟨-, hread⟩ := readLine_follows_grammar "Main" 3 "\tpush\u00a0a/b ٤2/// c"
  obtain ⟨-, hphrase, -⟩ := hread _ htokens
  exact ⟨htokens, (hphrase _).mpr (.number .push "a/b" hnumeral (by decide))⟩

end HackVm
