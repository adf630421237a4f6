import HackVm.Proofs.Text.Lines
import HackVm.Proofs.Text.Numerals
import HackVm.Vm.Line
import Mathlib.Data.List.Infix

/-!
# The tokens of a line

What a line is cut into, said without the functions that cut it.

`IsFront line front` says that `front` is what stands before the first comment mark, and
`Runs text runs` that `runs` are the maximal runs of characters of `text` that are not blank, in
order.  `LineTokens` puts the two together.  Every line has exactly one list of tokens, and it is
the one the reader works on (`lineTokens_iff`).

The reader also trims the front before it cuts it.  That changes nothing: blanks at either end
belong to no run (`words_trim`).

`IsWord` says of a text what holds of every token: it has no blank and no comment mark.
-/

namespace HackVm

namespace Text

/-! ## The part before a comment -/

/-- The text before the first comment mark of a line, or the whole line when it has none. -/
structure IsFront (line front : List Char) : Prop where
  split : ∃ comment, line = front ++ comment ∧ (comment = [] ∨ commentMark <+: comment)
  first : ∀ before after, line = before ++ commentMark ++ after → front.length ≤ before.length

theorem isFront_beforeComment (line : List Char) : IsFront line (beforeComment line) := by
  fun_induction beforeComment line with
  | case1 => exact ⟨⟨[], rfl, Or.inl rfl⟩, fun _ _ _ => Nat.zero_le _⟩
  | case2 rest => exact ⟨⟨'/' :: '/' :: rest, rfl, Or.inr ⟨rest, rfl⟩⟩, fun _ _ _ => Nat.zero_le _⟩
  | case3 c rest hmark ih =>
      obtain ⟨comment, hsplit, hcomment⟩ := ih.split
      refine ⟨⟨comment, congrArg (c :: ·) hsplit, hcomment⟩, ?_⟩
      intro before after hline
      cases before with
      | nil =>
          obtain ⟨hc, hrest⟩ := List.cons.inj hline
          exact absurd hrest (hmark after hc)
      | cons d before =>
          have hrest : rest = before ++ commentMark ++ after := (List.cons.inj hline).2
          exact Nat.succ_le_succ (ih.first before after hrest)

theorem IsFront.length_le {line front other : List Char} (hfront : IsFront line front)
    (hother : IsFront line other) : front.length ≤ other.length := by
  obtain ⟨comment, hline, rfl | ⟨after, hcomment⟩⟩ := hother.split
  · obtain ⟨rest, hsplit, -⟩ := hfront.split
    have hlength := congrArg List.length hsplit
    rw [hline, List.length_append, List.length_append, List.length_nil] at hlength
    omega
  · exact hfront.first other after (by rw [hline, ← hcomment, List.append_assoc])

theorem isFront_iff {line front : List Char} : IsFront line front ↔ beforeComment line = front := by
  constructor
  · intro hfront
    have hcut := isFront_beforeComment line
    have hlength := Nat.le_antisymm (hcut.length_le hfront) (hfront.length_le hcut)
    obtain ⟨comment, hline, -⟩ := hcut.split
    obtain ⟨other, hother, -⟩ := hfront.split
    exact (List.append_inj (hline.symm.trans hother) hlength).1
  · rintro rfl
    exact isFront_beforeComment line

/-- A text without a mark stays whole in front of a comment, unless its last slash would become
part of the mark. -/
theorem isFront_append {front comment : List Char} (hfront : ¬ commentMark <:+: front)
    (hcomment : comment = [] ∨ commentMark <+: comment)
    (hborder : comment ≠ [] → front.getLast? ≠ some '/') : IsFront (front ++ comment) front := by
  refine ⟨⟨comment, rfl, hcomment⟩, fun before after hline => ?_⟩
  rw [List.append_assoc, List.append_eq_append_iff] at hline
  obtain ⟨rest, rfl, -⟩ | ⟨rest, rfl, hmark⟩ := hline
  · simp
  · -- A mark that begins inside the front lies in it or reaches over its end.
    match rest with
    | [] => simp
    | [slash] =>
        obtain ⟨rfl, hrest⟩ := List.cons.inj hmark
        refine absurd ?_ (hborder ?_)
        · simp
        · rintro rfl
          exact absurd hrest (by simp)
    | slash :: second :: rest =>
        obtain ⟨rfl, hrest⟩ := List.cons.inj hmark
        obtain ⟨rfl, -⟩ := List.cons.inj hrest
        exact absurd ⟨before, rest, by simp [commentMark]⟩ hfront

/-! ## Maximal runs -/

/-- The maximal runs of characters that are not blank.  A run begins after blanks or at the start
of the text, and ends before a blank or at the end of the text. -/
inductive Runs : List Char → List (List Char) → Prop
  | blanks {gap : List Char} (hgap : ∀ c ∈ gap, isBlank c = true) : Runs gap []
  | run {gap run rest : List Char} {runs : List (List Char)}
      (hgap : ∀ c ∈ gap, isBlank c = true) (hne : run ≠ []) (hrun : ∀ c ∈ run, isBlank c = false)
      (hend : ∀ c ∈ rest.head?, isBlank c = true) (hrest : Runs rest runs) :
      Runs (gap ++ run ++ rest) (run :: runs)

theorem Runs.run_append {run rest : List Char} {runs : List (List Char)} (hne : run ≠ [])
    (hrun : ∀ c ∈ run, isBlank c = false) (hend : ∀ c ∈ rest.head?, isBlank c = true)
    (hrest : Runs rest runs) : Runs (run ++ rest) (run :: runs) := by
  have hstart : Runs ([] ++ run ++ rest) (run :: runs) := .run (by simp) hne hrun hend hrest
  rwa [List.nil_append] at hstart

theorem Runs.blanks_append {gap text : List Char} {runs : List (List Char)}
    (hgap : ∀ c ∈ gap, isBlank c = true) (h : Runs text runs) : Runs (gap ++ text) runs := by
  have hmore : ∀ {other : List Char}, (∀ c ∈ other, isBlank c = true) →
      ∀ c ∈ gap ++ other, isBlank c = true := by
    intro other hother c hc
    rcases List.mem_append.mp hc with hc | hc
    · exact hgap c hc
    · exact hother c hc
  cases h with
  | blanks hother => exact .blanks (hmore hother)
  | run hother hne hrun hend hrest =>
      rw [← List.append_assoc, ← List.append_assoc]
      exact .run (hmore hother) hne hrun hend hrest

theorem Runs.forall_isBlank {text : List Char} (h : Runs text []) :
    ∀ c ∈ text, isBlank c = true := by
  cases h with
  | blanks hgap => exact hgap

-- The induction is on the text ahead; the word already begun is a run without a right end.
private theorem runs_wordsFrom {begun : List Char} (hbegun : ∀ c ∈ begun, isBlank c = false)
    (text : List Char) : Runs (begun.reverse ++ text) (wordsFrom begun text) := by
  have hrun : ∀ {word : List Char}, (∀ c ∈ word, isBlank c = false) →
      ∀ c ∈ word.reverse, isBlank c = false := fun h c hc => h c (List.mem_reverse.mp hc)
  induction text generalizing begun with
  | nil =>
      rw [wordsFrom]
      split
      · next hempty =>
        rw [List.isEmpty_iff.mp hempty]
        exact .blanks (by simp)
      · next hempty =>
        have hne : begun.reverse ≠ [] := by simpa using hempty
        exact .run_append hne (hrun hbegun) (by simp) (.blanks (by simp))
  | cons c rest ih =>
      rw [wordsFrom]
      by_cases hc : isBlank c = true
      · have hgap : ∀ d ∈ [c], isBlank d = true := by simpa using hc
        have hlater : Runs (c :: rest) (wordsFrom [] rest) := .blanks_append hgap (@ih [] (by simp))
        rw [if_pos hc]
        split
        · next hempty =>
          rw [List.isEmpty_iff.mp hempty]
          exact hlater
        · next hempty =>
          have hne : begun.reverse ≠ [] := by simpa using hempty
          exact .run_append hne (hrun hbegun) (by simpa using hc) hlater
      · rw [if_neg hc]
        have hmore : ∀ d ∈ c :: begun, isBlank d = false := by
          intro d hd
          rcases List.mem_cons.mp hd with rfl | hd
          · simpa using hc
          · exact hbegun d hd
        have hword := ih hmore
        rwa [List.reverse_cons, List.append_assoc, List.singleton_append] at hword

/-- Blanks at the front belong to no word. -/
theorem words_append_of_isBlank {gap : List Char} (hgap : ∀ c ∈ gap, isBlank c = true)
    (text : List Char) : words (gap ++ text) = words text := by
  induction gap with
  | nil => rfl
  | cons c gap ih =>
      rw [List.cons_append, words_cons_of_isBlank (hgap c (List.mem_cons_self ..))]
      exact ih fun d hd => hgap d (List.mem_cons_of_mem _ hd)

theorem words_of_isBlank {gap : List Char} (hgap : ∀ c ∈ gap, isBlank c = true) :
    words gap = [] := by
  simpa using words_append_of_isBlank hgap []

private theorem wordsFrom_append_run {run : List Char} (hrun : ∀ c ∈ run, isBlank c = false)
    (begun rest : List Char) :
    wordsFrom begun (run ++ rest) = wordsFrom (run.reverse ++ begun) rest := by
  induction run generalizing begun with
  | nil => rfl
  | cons c run ih =>
      have hc := hrun c (List.mem_cons_self ..)
      rw [List.cons_append, wordsFrom, hc, if_neg Bool.false_ne_true,
        ih fun d hd => hrun d (List.mem_cons_of_mem _ hd)]
      simp

/-- A word that has begun ends before a blank or at the end of the text. -/
private theorem wordsFrom_of_end {begun rest : List Char} (hbegun : begun ≠ [])
    (hend : ∀ c ∈ rest.head?, isBlank c = true) :
    wordsFrom begun rest = begun.reverse :: words rest := by
  have hempty : ¬ begun.isEmpty = true := by simpa using hbegun
  cases rest with
  | nil => rw [wordsFrom, if_neg hempty, words_nil]
  | cons c rest =>
      have hc : isBlank c = true := hend c rfl
      rw [wordsFrom, if_pos hc, if_neg hempty, words_cons_of_isBlank hc]
      rfl

/-- A run in front of a blank, or of nothing, is a word. -/
theorem words_run_append {run rest : List Char} (hne : run ≠ [])
    (hrun : ∀ c ∈ run, isBlank c = false) (hend : ∀ c ∈ rest.head?, isBlank c = true) :
    words (run ++ rest) = run :: words rest := by
  have hbegun : run.reverse ≠ [] := by simpa using hne
  rw [words, wordsFrom_append_run hrun, List.append_nil, wordsFrom_of_end hbegun hend,
    List.reverse_reverse]

theorem runs_iff {text : List Char} {runs : List (List Char)} :
    Runs text runs ↔ words text = runs := by
  constructor
  · intro h
    induction h with
    | blanks hgap => exact words_of_isBlank hgap
    | run hgap hne hrun hend _ ih =>
        rw [List.append_assoc, words_append_of_isBlank hgap, words_run_append hne hrun hend, ih]
  · rintro rfl
    exact @runs_wordsFrom [] (by simp) text

/-- Runs with one blank between them are the runs of the whole. -/
theorem runs_intercalate {runs : List (List Char)}
    (hruns : ∀ run ∈ runs, run ≠ [] ∧ ∀ c ∈ run, isBlank c = false) :
    Runs ([' '].intercalate runs) runs := by
  induction runs with
  | nil => exact .blanks (by simp)
  | cons run rest ih =>
      obtain ⟨hne, hrun⟩ := hruns run (List.mem_cons_self ..)
      have hrest := ih fun later hlater => hruns later (List.mem_cons_of_mem _ hlater)
      cases rest with
      | nil => simpa using Runs.run_append hne hrun (by simp) hrest
      | cons next rest =>
          rw [List.intercalate_cons_cons, List.append_assoc]
          exact .run_append hne hrun (by simp; decide) (.blanks_append (by simp; decide) hrest)

/-! ## Trimming -/

/-- Blanks at the end belong to no run. -/
theorem Runs.append_blanks {text gap : List Char} {runs : List (List Char)} (h : Runs text runs)
    (hgap : ∀ c ∈ gap, isBlank c = true) : Runs (text ++ gap) runs := by
  induction h with
  | blanks hblank =>
      refine .blanks fun c hc => ?_
      rcases List.mem_append.mp hc with hc | hc
      · exact hblank c hc
      · exact hgap c hc
  | @run before run rest runs hbefore hne hrun hend _ ih =>
      rw [List.append_assoc]
      refine .run hbefore hne hrun ?_ ih
      cases rest with
      | nil => exact fun c hc => hgap c (List.mem_of_mem_head? hc)
      | cons d rest => exact hend

theorem words_trim (text : List Char) : words (trim text) = words text := by
  have hfront : text.takeWhile isBlank ++ text.dropWhile isBlank = text :=
    List.takeWhile_append_dropWhile
  have hback : trim text ++ ((text.dropWhile isBlank).reverse.takeWhile isBlank).reverse =
      text.dropWhile isBlank := by
    rw [trim, trimWhere, ← List.reverse_append, List.takeWhile_append_dropWhile,
      List.reverse_reverse]
  have hblank : ∀ rest : List Char, ∀ c ∈ rest.takeWhile isBlank, isBlank c = true :=
    fun rest c hc => List.all_eq_true.mp List.all_takeWhile c hc
  have hruns : Runs (text.dropWhile isBlank) (words (trim text)) := by
    rw [← hback]
    exact (runs_iff.mpr rfl).append_blanks fun c hc => hblank _ c (List.mem_reverse.mp hc)
  calc words (trim text) = words (text.dropWhile isBlank) := (runs_iff.mp hruns).symm
    _ = words (text.takeWhile isBlank ++ text.dropWhile isBlank) :=
        (words_append_of_isBlank (hblank text) _).symm
    _ = words text := by rw [hfront]

end Text

/-! ## Lines -/

open Text

/-- The tokens of a line: the maximal runs of characters that are not blank, before the first
comment mark. -/
def LineTokens (line : String) (tokens : List String) : Prop :=
  ∃ front, IsFront line.toList front ∧ Runs front (tokens.map String.toList)

theorem lineTokens_iff {line : String} {tokens : List String} :
    LineTokens line tokens ↔ Line.words line = tokens := by
  have hwords : Line.words line = (words (beforeComment line.toList)).map String.ofList := by
    rw [Line.words, significantPart, words_trim]
  have hlists : ∀ {runs : List (List Char)},
      runs.map String.ofList = tokens ↔ runs = tokens.map String.toList := by
    intro runs
    constructor
    · rintro rfl
      simp [Function.comp_def]
    · rintro rfl
      simp [Function.comp_def]
  constructor
  · rintro ⟨front, hfront, hruns⟩
    rw [hwords, isFront_iff.mp hfront, hlists]
    exact runs_iff.mp hruns
  · intro h
    rw [hwords, hlists] at h
    exact ⟨_, isFront_beforeComment _, runs_iff.mpr h⟩

/-- A line is significant if it has a token. -/
theorem isSignificant_iff {line : String} :
    Line.isSignificant line = true ↔ Line.words line ≠ [] := by
  have hnone : words (significantPart line.toList) = [] → significantPart line.toList = [] := by
    intro hwords
    rw [significantPart, words_trim] at hwords
    have hblank := (runs_iff.mpr hwords).forall_isBlank
    have hdrop : (beforeComment line.toList).dropWhile isBlank = [] := by
      simpa using @List.dropWhile_append_of_pos _ _ _ [] hblank
    rw [significantPart, trim, trimWhere, hdrop]
    rfl
  rw [Line.isSignificant, Line.words, Bool.not_eq_true', ← Bool.not_eq_true, List.isEmpty_iff,
    ne_eq, List.map_eq_nil_iff]
  refine not_congr ⟨fun hpart => ?_, hnone⟩
  rw [hpart, words_nil]

/-! ## Words -/

/-- A text without blanks and without a comment mark. -/
def IsWord (text : String) : Prop :=
  (∀ c ∈ text.toList, isBlank c = false) ∧ ¬ commentMark <:+: text.toList

instance (text : String) : Decidable (IsWord text) :=
  @instDecidableAnd _ _ (List.decidableBAll (fun c => isBlank c = false) text.toList) inferInstance

theorem IsWord.isSingleLine {text : String} (h : IsWord text) : IsSingleLine text :=
  fun c hc => isLineBreak_of_not_isBlank (h.1 c hc)

/-- The words of a line are words. -/
theorem isWord_of_mem_words {line word : String} (h : word ∈ Line.words line) :
    word ≠ "" ∧ IsWord word := by
  obtain ⟨run, hmem, rfl⟩ := List.mem_map.mp h
  have hne := (ne_nil_and_not_isBlank_of_mem_words hmem).1
  refine ⟨fun hempty => hne (by simpa using congrArg String.toList hempty), ?_⟩
  have hsigns := word_of_mem_words_significantPart hmem
  rwa [← @String.toList_ofList run] at hsigns

theorem isWord_natural (n : Nat) : IsWord (natural n) := by
  constructor
  · intro c hc
    exact isBlank_of_isDigit (isDigit_of_mem_naturalDigits (by simpa using hc))
  · refine not_isInfix_of_forall_ne fun c hc => ?_
    rintro rfl
    exact absurd (isDigit_of_mem_naturalDigits (by simpa using hc)) (by decide)

theorem IsWord.append {first second : String} {c : Char} {rest : List Char} (h₁ : IsWord first)
    (hsecond : second.toList = c :: rest) (hc : c ≠ '/') (h₂ : IsWord second) :
    IsWord (first ++ second) := by
  constructor
  · intro d hd
    rw [String.toList_append] at hd
    rcases List.mem_append.mp hd with hd | hd
    · exact h₁.1 d hd
    · exact h₂.1 d hd
  · rw [String.toList_append, hsecond]
    refine not_isInfix_append_cons hc h₁.2 fun hmark => h₂.2 ?_
    rw [hsecond]
    exact hmark.trans (List.suffix_cons c rest).isInfix

theorem natural_eq_cons (n : Nat) : ∃ c rest, (natural n).toList = c :: rest ∧ c ≠ '/' := by
  cases hdigits : naturalDigits n with
  | nil => exact absurd hdigits (naturalDigits_ne_nil n)
  | cons c rest =>
      refine ⟨c, rest, by rw [toList_natural, hdigits], ?_⟩
      rintro rfl
      have hdigit : '/'.isDigit = true :=
        isDigit_of_mem_naturalDigits (n := n) (by rw [hdigits]; exact List.mem_cons_self ..)
      exact absurd hdigit (by decide)

theorem IsWord.append_natural {text : String} (h : IsWord text) (n : Nat) :
    IsWord (text ++ natural n) := by
  obtain ⟨c, rest, htext, hc⟩ := natural_eq_cons n
  exact h.append htext hc (isWord_natural n)

theorem isWord_decimal (n : Int) : IsWord (decimal n) := by
  unfold decimal
  split
  · have hminus : IsWord "-" := by decide
    exact hminus.append_natural _
  · exact isWord_natural _

end HackVm
