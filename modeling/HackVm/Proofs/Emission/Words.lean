import HackVm.Proofs.Emission.Listing
import HackVm.Proofs.Reading.Rendering

/-!
# Words in commands and statements

The operands of a command that was read from a line are words: they hold no blank, hence no line
break, and no comment mark.  Its number is not negative (`isPlain_of_readLine`).

A symbol that is made of such words is written on one line, and a declared label is a word itself
(`Symbol.IsPlain.isSingleLine`, `Symbol.IsPlain.isWord`).  Nothing more is asked of the name of a
source than that it holds no line break.
-/

namespace HackVm

open Emit Hack Text

/-- A command as lines give it: its operand is a word and its number a natural one. -/
structure Command.IsPlain (command : Command) : Prop where
  word : ∀ word, command.word? = some word → IsWord word
  number : ∀ number, command.number? = some number → 0 ≤ number

/-! ## Commands of lines -/

/-- The command of a line is plain. -/
theorem isPlain_of_readLine {source line : String} {number : Int} {command : Command}
    (h : readLine source number line = .ok (some command)) : command.IsPlain := by
  have hrenderable := isRenderable_of_readLine h
  constructor
  · intro word hword
    exact (hrenderable.word word hword).2
  · intro number hnumber
    obtain ⟨value, rfl, -⟩ := hrenderable.number number hnumber
    exact Int.natCast_nonneg value

private theorem isPlain_of_mem_readLines {source : String} {number : Nat} {lines : List String}
    {line : Nat × Command} (h : line ∈ (readLines source number lines).1) : line.2.IsPlain := by
  induction lines generalizing number with
  | nil => simp [readLines] at h
  | cons first rest ih =>
      unfold readLines at h
      split at h
      · simp at h
      · exact ih h
      · next command hread =>
        rcases List.mem_cons.mp h with rfl | hlater
        · exact isPlain_of_readLine hread
        · exact ih hlater

/-- The entries of a listing hold plain commands and names of the sources. -/
theorem isPlain_of_mem_listing {sources : List Source} {entry : Entry}
    (h : entry ∈ listing sources) :
    entry.command.IsPlain ∧ ∃ source ∈ sources, source.name = entry.source := by
  obtain ⟨source, hsource, hentry⟩ := List.mem_flatMap.mp h
  obtain ⟨line, hline, rfl⟩ := List.mem_map.mp hentry
  exact ⟨isPlain_of_mem_readLines hline, source, hsource, rfl⟩

/-! ## Emitted statements -/

/-- The names in a symbol are what the program gives: words, and a source name without breaks. -/
def Emit.Symbol.IsPlain : Symbol → Prop
  | .static source _ => IsSingleLine source
  | .name word => IsWord word
  | .returnOf function _ => IsWord function
  | _ => True

/-- The symbols that are declared: names, and the labels that are made up for them. -/
def Emit.Symbol.isLabel : Symbol → Bool
  | .name _ => true
  | .comparison _ _ _ => true
  | .returnOf _ _ => true
  | _ => false

/-- A statement with plain symbols, of which only labels are declared. -/
def Emit.Statement.IsPlain : Statement → Prop
  | .comment text => IsSingleLine text
  | .declare symbol => symbol.IsPlain ∧ symbol.isLabel = true
  | .load symbol => symbol.IsPlain
  | .compute _ _ _ => True

@[simp] theorem Emit.Symbol.isPlain_register (r : Register) : (Symbol.register r).IsPlain := trivial

@[simp] theorem Emit.Symbol.isPlain_number (value : Int) : (Symbol.number value).IsPlain := trivial

@[simp] theorem Emit.Symbol.isPlain_comparison (place : Place) (operator : Comparison)
    (serial : Nat) : (Symbol.comparison place operator serial).IsPlain := trivial

@[simp] theorem Emit.Symbol.isPlain_name (word : String) :
    (Symbol.name word).IsPlain ↔ IsWord word := Iff.rfl

@[simp] theorem Emit.Symbol.isPlain_returnOf (function : String) (serial : Nat) :
    (Symbol.returnOf function serial).IsPlain ↔ IsWord function := Iff.rfl

@[simp] theorem Emit.Statement.isPlain_declare (symbol : Symbol) :
    (Statement.declare symbol).IsPlain ↔ symbol.IsPlain ∧ symbol.isLabel = true := Iff.rfl

@[simp] theorem Emit.Statement.isPlain_load (symbol : Symbol) :
    (Statement.load symbol).IsPlain ↔ symbol.IsPlain := Iff.rfl

@[simp] theorem Emit.Statement.isPlain_compute (destination : Destination)
    (computation : Computation) (jump : Option Jump) :
    (Statement.compute destination computation jump).IsPlain := trivial

theorem isWord_comparison (place : Place) (operator : Comparison) (serial : Nat) :
    IsWord (Symbol.comparison place operator serial).text := by
  have hplace : IsWord place.text := by
    cases place <;> decide +kernel
  have hoperator : IsWord operator.text ∧ ∃ c rest, operator.text.toList = c :: rest ∧ c ≠ '/' := by
    cases operator <;>
      exact ⟨by decide, _, _, rfl, by decide⟩
  have hbar : IsWord "_" := by decide
  obtain ⟨hword, c, rest, htext, hc⟩ := hoperator
  exact ((hplace.append htext hc hword).append rfl (by decide) hbar).append_natural serial

theorem isWord_returnOf {function : String} (hfunction : IsWord function) (serial : Nat) :
    IsWord (Symbol.returnOf function serial).text := by
  have hmiddle : IsWord "$ret." := by decide
  exact (hfunction.append rfl (by decide) hmiddle).append_natural serial

/-- A plain symbol is written without line breaks. -/
theorem Emit.Symbol.IsPlain.isSingleLine {symbol : Symbol} (h : symbol.IsPlain) :
    IsSingleLine symbol.text := by
  cases symbol with
  | register register => cases register <;> decide
  | number value => exact (isWord_decimal value).isSingleLine
  | static source index =>
      have hdot : IsSingleLine "." := by decide
      intro c hc
      simp only [Symbol.text, String.toList_append, List.mem_append] at hc
      rcases hc with (hc | hc) | hc
      · exact h c hc
      · exact hdot c hc
      · exact (isWord_decimal index).isSingleLine c hc
  | name word => exact IsWord.isSingleLine h
  | comparison place operator serial => exact (isWord_comparison place operator serial).isSingleLine
  | returnOf function serial => exact (isWord_returnOf h serial).isSingleLine

/-- A plain label is a word. -/
theorem Emit.Symbol.IsPlain.isWord {symbol : Symbol} (h : symbol.IsPlain)
    (hlabel : symbol.isLabel = true) : IsWord symbol.text := by
  cases symbol with
  | register register => exact absurd hlabel (by simp [Symbol.isLabel])
  | number value => exact absurd hlabel (by simp [Symbol.isLabel])
  | static source index => exact absurd hlabel (by simp [Symbol.isLabel])
  | name word => exact h
  | comparison place operator serial => exact isWord_comparison place operator serial
  | returnOf function serial => exact isWord_returnOf h serial

theorem Emit.Statement.IsPlain.isLine {statement : Statement} (h : statement.IsPlain) :
    statement.IsLine := by
  cases statement with
  | comment text => exact h
  | declare symbol => exact ⟨h.1.isSingleLine, (h.1.isWord h.2).2⟩
  | load symbol => exact Symbol.IsPlain.isSingleLine h
  | compute destination computation jump => trivial

end HackVm
