import HackVm.Text.Comment
import HackVm.Text.LineBreak

/-!
# Lines, comments and words

Facts about texts that both halves of the program rest on: the reader of source lines and the
loader of assembly.

* A text that was written line by line is cut back into those lines (`linesFrom_flatMap`), as long
  as no line holds a break of its own.  Behind a line feed it is cut as if nothing stood before
  (`linesFrom_append_cons_feed`), whatever breaks there are.
* A line without `//` has no comment (`beforeComment_eq_self`), and what stands before a comment
  has none (`not_isInfix_beforeComment`).
* A line that begins with a sign that is no blank keeps it (`significantPart_cons`), and a line
  that also ends with one is kept whole (`significantPart_eq_self`).
* The words of a text are pieces of it (`isInfix_of_mem_words`).
-/

namespace HackVm.Text

/-! ## Lines -/

/-- A text without line breaks. -/
def IsSingleLine (text : String) : Prop :=
  ∀ c ∈ text.toList, isLineBreak c = false

instance (text : String) : Decidable (IsSingleLine text) :=
  List.decidableBAll (fun c => isLineBreak c = false) text.toList

theorem IsSingleLine.append {first second : String} (h₁ : IsSingleLine first)
    (h₂ : IsSingleLine second) : IsSingleLine (first ++ second) := by
  intro c hc
  rw [String.toList_append, List.mem_append] at hc
  exact hc.elim (h₁ c) (h₂ c)

/-- A line break is a blank, so words hold no line breaks. -/
theorem isLineBreak_of_not_isBlank {c : Char} (hc : isBlank c = false) : isLineBreak c = false := by
  rw [Bool.eq_false_iff]
  intro hbreak
  have hblank : isBlank c = true := by
    simp only [isLineBreak, Bool.or_eq_true, Bool.and_eq_true, decide_eq_true_eq,
      beq_iff_eq] at hbreak
    simp only [isBlank, Bool.or_eq_true, Bool.and_eq_true, decide_eq_true_eq, beq_iff_eq]
    omega
  rw [hblank] at hc
  exact Bool.noConfusion hc

/-- A sign opens a line or goes on with it, unless it is the first half of a double break. -/
theorem linesFrom_cons_eq {c : Char} {rest : List Char}
    (hdouble : ∀ later, c = '\r' → rest = '\n' :: later → False) (begun : List Char) :
    linesFrom begun (c :: rest) =
      if isLineBreak c then begun.reverse :: linesFrom [] rest
      else linesFrom (c :: begun) rest := by
  rw [linesFrom]
  exact hdouble

theorem linesFrom_cons {c : Char} (hbreak : isLineBreak c = false) (begun rest : List Char) :
    linesFrom begun (c :: rest) = linesFrom (c :: begun) rest := by
  have hreturn : c ≠ '\r' := by
    rintro rfl
    exact absurd hbreak (by decide)
  rw [linesFrom_cons_eq fun _ hc _ => hreturn hc]
  simp [hbreak]

theorem linesFrom_feed_cons (begun rest : List Char) :
    linesFrom begun ('\n' :: rest) = begun.reverse :: linesFrom [] rest := by
  rw [linesFrom_cons_eq fun _ hc _ => absurd hc (by decide), if_pos (by decide)]

/-- A line ends at the line feed after it. -/
theorem linesFrom_append_feed {line : List Char} (hline : ∀ c ∈ line, isLineBreak c = false)
    (begun rest : List Char) :
    linesFrom begun (line ++ '\n' :: rest) = (begun.reverse ++ line) :: linesFrom [] rest := by
  induction line generalizing begun with
  | nil => rw [List.nil_append, linesFrom_feed_cons, List.append_nil]
  | cons c line ih =>
      rw [List.cons_append, linesFrom_cons (hline c (List.mem_cons_self ..))]
      rw [ih (fun d hd => hline d (List.mem_cons_of_mem _ hd))]
      simp

/-- What stands after a line feed is cut into lines on its own. -/
theorem linesFrom_append_cons_feed (begun front rest : List Char) :
    linesFrom begun (front ++ '\n' :: rest) =
      linesFrom begun (front ++ ['\n']) ++ linesFrom [] rest := by
  induction begun, front using linesFrom.induct with
  | case1 begun _ => simp [linesFrom_feed_cons]
  | case2 begun _ => simp [linesFrom_feed_cons]
  | case3 begun front ih => simp only [List.cons_append, linesFrom, ih]
  | case4 begun c front hdouble hbreak ih =>
      cases front with
      | nil =>
          by_cases hreturn : c = '\r'
          · -- The line feed belongs to the break before it.
            subst hreturn
            simp [linesFrom]
          · have hopen : ∀ tail,
                linesFrom begun (c :: tail) = begun.reverse :: linesFrom [] tail := by
              intro tail
              rw [linesFrom_cons_eq fun _ hc _ => hreturn hc, if_pos hbreak]
            simp only [List.cons_append, hopen, ih]
      | cons d front =>
          have hopen : ∀ tail, linesFrom begun (c :: (d :: front ++ tail)) =
              begun.reverse :: linesFrom [] (d :: front ++ tail) := by
            intro tail
            rw [linesFrom_cons_eq, if_pos hbreak]
            intro later hc hrest
            exact hdouble front hc (by rw [(List.cons.inj hrest).1])
          calc linesFrom begun (c :: (d :: front ++ '\n' :: rest))
              = begun.reverse :: (linesFrom [] (d :: front ++ ['\n']) ++ linesFrom [] rest) := by
                rw [hopen, ih]
            _ = linesFrom begun (c :: (d :: front ++ ['\n'])) ++ linesFrom [] rest := by
                rw [hopen]
                rfl
  | case5 begun c front _ hbreak ih =>
      have hnone : isLineBreak c = false := Bool.eq_false_iff.mpr hbreak
      rw [List.cons_append, List.cons_append, linesFrom_cons hnone, linesFrom_cons hnone, ih]

/-- A text written line by line has exactly those lines. -/
theorem linesFrom_flatMap {α : Type} (write : α → List Char) {items : List α}
    (hitems : ∀ item ∈ items, ∀ c ∈ write item, isLineBreak c = false) :
    linesFrom [] (items.flatMap fun item => write item ++ ['\n']) = items.map write := by
  induction items with
  | nil => rfl
  | cons item rest ih =>
      have hrest := ih fun later hlater => hitems later (List.mem_cons_of_mem _ hlater)
      rw [List.flatMap_cons, List.append_assoc, List.singleton_append,
        linesFrom_append_feed (hitems item (List.mem_cons_self ..)), hrest]
      rfl

/-! ## Comments -/

/-- The mark that starts a comment. -/
def commentMark : List Char := ['/', '/']

private theorem beforeComment_cons {c : Char} {rest : List Char}
    (hmark : ∀ later, c = '/' → rest = '/' :: later → False) :
    beforeComment (c :: rest) = c :: beforeComment rest := by
  rw [beforeComment]
  exact hmark

/-- A sign other than the slash starts no comment. -/
theorem beforeComment_cons_of_ne {c : Char} (hc : c ≠ '/') (rest : List Char) :
    beforeComment (c :: rest) = c :: beforeComment rest :=
  beforeComment_cons fun _ hslash _ => hc hslash

/-- A text without the mark is no comment anywhere. -/
theorem beforeComment_eq_self {text : List Char} (hmark : ¬ commentMark <:+: text) :
    beforeComment text = text := by
  fun_induction beforeComment text with
  | case1 => rfl
  | case2 rest => exact absurd ⟨[], rest, rfl⟩ hmark
  | case3 c rest _ ih =>
      rw [ih fun hinside => hmark (hinside.trans (List.suffix_cons c rest).isInfix)]

private theorem beforeComment_eq_cons {text rest : List Char} {c : Char}
    (h : beforeComment text = c :: rest) : ∃ later, text = c :: later := by
  fun_induction beforeComment text with
  | case1 => simp at h
  | case2 => simp at h
  | case3 first later _ _ =>
      obtain ⟨rfl, -⟩ := List.cons.inj h
      exact ⟨later, rfl⟩

/-- The part before the first mark holds no mark. -/
theorem not_isInfix_beforeComment (text : List Char) :
    ¬ commentMark <:+: beforeComment text := by
  fun_induction beforeComment text with
  | case1 => simp [commentMark]
  | case2 => simp [commentMark]
  | case3 c rest hmark ih =>
      intro hinside
      rcases List.infix_cons_iff.mp hinside with hfront | hlater
      · -- A mark at the front would have to begin in front of `rest` too.
        obtain ⟨after, hafter⟩ := hfront
        obtain ⟨hc, hrest⟩ := List.cons.inj hafter
        obtain ⟨later, hlater⟩ := beforeComment_eq_cons hrest.symm
        exact hmark later hc.symm hlater
      · exact ih hlater

/-- Two texts without the mark, joined by a sign other than the slash, have no mark. -/
theorem not_isInfix_append_cons {first second : List Char} {c : Char} (hc : c ≠ '/')
    (hfirst : ¬ commentMark <:+: first) (hsecond : ¬ commentMark <:+: second) :
    ¬ commentMark <:+: first ++ c :: second := by
  induction first with
  | nil =>
      intro hinside
      rcases List.infix_cons_iff.mp hinside with ⟨after, hafter⟩ | hlater
      · exact hc (List.cons.inj hafter).1.symm
      · exact hsecond hlater
  | cons a first ih =>
      intro hinside
      have htail : ¬ commentMark <:+: first :=
        fun h => hfirst (h.trans (List.suffix_cons a first).isInfix)
      rcases List.infix_cons_iff.mp hinside with ⟨after, hafter⟩ | hlater
      · obtain ⟨ha, hnext⟩ := List.cons.inj hafter
        cases first with
        | nil => exact hc (List.cons.inj hnext).1.symm
        | cons b first =>
            obtain ⟨hb, -⟩ := List.cons.inj hnext
            exact hfirst ⟨[], first, by rw [← ha, ← hb]; rfl⟩
      · exact ih htail hlater

/-- Two texts without the mark have none together, if the second does not begin with a slash. -/
theorem not_isInfix_append {first second : List Char} (hfirst : ¬ commentMark <:+: first)
    (hsecond : ¬ commentMark <:+: second) (hhead : second.head? ≠ some '/') :
    ¬ commentMark <:+: first ++ second := by
  cases second with
  | nil => rwa [List.append_nil]
  | cons c rest =>
      have hc : c ≠ '/' := fun h => hhead (congrArg some h)
      exact not_isInfix_append_cons hc hfirst fun hrest =>
        hsecond (hrest.trans (List.suffix_cons c rest).isInfix)

/-- A text without slashes has no mark. -/
theorem not_isInfix_of_forall_ne {text : List Char} (htext : ∀ c ∈ text, c ≠ '/') :
    ¬ commentMark <:+: text := fun hinside =>
  htext '/' (hinside.subset (List.mem_cons_self ..)) rfl

/-! ## The significant part of a line -/

/-- A text without the blanks at its end. -/
def withoutEndBlanks (text : List Char) : List Char :=
  (text.reverse.dropWhile isBlank).reverse

/-- A text whose last sign is no blank has no blanks at its end. -/
theorem withoutEndBlanks_append_singleton {c : Char} (hc : isBlank c = false) (text : List Char) :
    withoutEndBlanks (text ++ [c]) = text ++ [c] := by
  simp [withoutEndBlanks, hc]

/-- A text without blanks has none at its end. -/
theorem withoutEndBlanks_eq_self {text : List Char} (htext : ∀ c ∈ text, isBlank c = false) :
    withoutEndBlanks text = text := by
  rcases List.eq_nil_or_concat text with rfl | ⟨front, c, rfl⟩
  · rfl
  · rw [List.concat_eq_append]
    exact withoutEndBlanks_append_singleton (htext c (by simp)) front

/-- A line keeps its first sign if that is neither a blank nor a slash. -/
theorem significantPart_cons {c : Char} (hblank : isBlank c = false) (hslash : c ≠ '/')
    (rest : List Char) :
    significantPart (c :: rest) = c :: withoutEndBlanks (beforeComment rest) := by
  rw [significantPart, beforeComment_cons_of_ne hslash]
  simp only [trim, trimWhere, List.dropWhile_cons, hblank, withoutEndBlanks, List.reverse_cons,
    Bool.false_eq_true, if_false]
  rw [List.dropWhile_append]
  split
  · next hempty =>
    rw [List.isEmpty_iff.mp hempty]
    simp [hblank]
  · simp

/-- A line without a comment whose ends are no blanks is all significant. -/
theorem significantPart_eq_self {first last : Char} {middle : List Char}
    (hfirst : isBlank first = false) (hslash : first ≠ '/') (hlast : isBlank last = false)
    (hmark : ¬ commentMark <:+: middle ++ [last]) :
    significantPart (first :: (middle ++ [last])) = first :: (middle ++ [last]) := by
  rw [significantPart_cons hfirst hslash, beforeComment_eq_self hmark,
    withoutEndBlanks_append_singleton hlast]

/-- A line without a comment and without blanks is all significant. -/
theorem significantPart_of_not_isBlank {text : List Char} (hblank : ∀ c ∈ text, isBlank c = false)
    (hmark : ¬ commentMark <:+: text) : significantPart text = text := by
  rw [significantPart, beforeComment_eq_self hmark, trim, trimWhere_eq_self hblank]

/-- A comment is not significant. -/
theorem significantPart_comment (text : List Char) :
    significantPart ('/' :: '/' :: text) = [] := rfl

/-! ## Words -/

private theorem isInfix_of_mem_wordsFrom {word text found : List Char}
    (hfound : found ∈ wordsFrom word text) : found <:+: word.reverse ++ text := by
  induction text generalizing word with
  | nil =>
      have hmem : found ∈ if word.isEmpty then [] else [word.reverse] := hfound
      split at hmem
      · simp at hmem
      · have hword : found = word.reverse := List.mem_singleton.mp hmem
        exact ⟨[], [], by simp [hword]⟩
  | cons c rest ih =>
      have hlater : ∀ {begun}, found ∈ wordsFrom begun rest → begun = [] →
          found <:+: word.reverse ++ c :: rest := by
        rintro _ hmem rfl
        have hrest : rest <:+ word.reverse ++ c :: rest := ⟨word.reverse ++ [c], by simp⟩
        exact (ih hmem).trans hrest.isInfix
      rw [wordsFrom] at hfound
      split at hfound
      · split at hfound
        · exact hlater hfound rfl
        · rcases List.mem_cons.mp hfound with rfl | hmem
          · exact ⟨[], c :: rest, by simp⟩
          · exact hlater hmem rfl
      · have hmore := ih hfound
        rwa [List.reverse_cons, List.append_assoc, List.singleton_append] at hmore

/-- A word of a text is a piece of it. -/
theorem isInfix_of_mem_words {text word : List Char} (hword : word ∈ words text) :
    word <:+: text := by
  simpa using isInfix_of_mem_wordsFrom hword

/-- Trimming leaves a piece of the text. -/
theorem trimWhere_isInfix (drop : Char → Bool) (text : List Char) :
    trimWhere drop text <:+: text := by
  have hend : ∀ rest : List Char, (rest.reverse.dropWhile drop).reverse <+: rest := by
    intro rest
    have hsuffix := @List.dropWhile_suffix _ rest.reverse drop
    simpa using List.reverse_prefix.mpr hsuffix
  exact (hend _).isInfix.trans (List.dropWhile_suffix drop).isInfix

/-- A word of the significant part of a line holds neither a blank nor a comment mark. -/
theorem word_of_mem_words_significantPart {line word : List Char}
    (hword : word ∈ words (significantPart line)) :
    (∀ c ∈ word, isBlank c = false) ∧ ¬ commentMark <:+: word := by
  refine ⟨(ne_nil_and_not_isBlank_of_mem_words hword).2, fun hmark => ?_⟩
  have hpiece : word <:+: beforeComment line :=
    (isInfix_of_mem_words hword).trans (trimWhere_isInfix _ _)
  exact not_isInfix_beforeComment line (hmark.trans hpiece)

end HackVm.Text
