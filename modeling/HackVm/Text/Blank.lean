/-!
# Blanks, trimming and words

Source lines are cut into words at blanks.  A blank is a horizontal or vertical space of any
script: the ASCII controls that move the print position, the four information separators, the
next-line control and every Unicode space separator, line separator and paragraph separator.
The zero-width space and the byte order mark are not blanks.

Everything here works on lists of characters, so that each operation is a structural recursion.
-/

namespace HackVm.Text

/-- Characters that separate words. -/
def isBlank (c : Char) : Bool :=
  let code := c.toNat
  (0x09 ≤ code && code ≤ 0x0D) || (0x1C ≤ code && code ≤ 0x20) || code == 0x85 || code == 0xA0 ||
    code == 0x1680 || (0x2000 ≤ code && code ≤ 0x200A) || code == 0x2028 || code == 0x2029 ||
    code == 0x202F || code == 0x205F || code == 0x3000

/-- Removes the leading characters that satisfy `drop`, and then the trailing ones. -/
def trimWhere (drop : Char → Bool) (text : List Char) : List Char :=
  ((text.dropWhile drop).reverse.dropWhile drop).reverse

/-- Removes the blanks at both ends. -/
def trim (text : List Char) : List Char :=
  trimWhere isBlank text

/-- Dropping ends at the first character that is kept. -/
private theorem dropWhile_surrounded {drop : Char → Bool} {before text : List Char}
    (hbefore : ∀ c ∈ before, drop c = true) (htext : ∀ c ∈ text, drop c = false)
    (hne : text ≠ []) (after : List Char) :
    (before ++ text ++ after).dropWhile drop = text ++ after := by
  obtain ⟨c, rest, rfl⟩ := List.exists_cons_of_ne_nil hne
  rw [List.append_assoc, List.dropWhile_append_of_pos hbefore, List.cons_append,
    List.dropWhile_cons, htext c (List.mem_cons_self ..), if_neg Bool.false_ne_true]

/-- What surrounds a text is trimmed, if all of it is to be dropped and nothing of the text is. -/
theorem trimWhere_surrounded {drop : Char → Bool} {before text after : List Char}
    (hbefore : ∀ c ∈ before, drop c = true) (htext : ∀ c ∈ text, drop c = false)
    (hafter : ∀ c ∈ after, drop c = true) : trimWhere drop (before ++ text ++ after) = text := by
  by_cases hne : text = []
  · have hall : ∀ c ∈ before ++ after, drop c = true := by
      intro c hc
      rcases List.mem_append.mp hc with hfirst | hlast
      · exact hbefore c hfirst
      · exact hafter c hlast
    have hnothing := @List.dropWhile_append_of_pos _ drop _ [] hall
    rw [List.append_nil] at hnothing
    rw [hne, List.append_nil, trimWhere, hnothing]
    rfl
  · have hback : (after.reverse ++ text.reverse).dropWhile drop = text.reverse := by
      simpa using dropWhile_surrounded (fun c hc => hafter c (List.mem_reverse.mp hc))
        (fun c hc => htext c (List.mem_reverse.mp hc)) (by simpa using hne) []
    rw [trimWhere, dropWhile_surrounded hbefore htext hne, List.reverse_append, hback,
      List.reverse_reverse]

theorem trimWhere_eq_self {drop : Char → Bool} {text : List Char}
    (htext : ∀ c ∈ text, drop c = false) : trimWhere drop text = text := by
  simpa using @trimWhere_surrounded drop [] text [] (by simp) htext (by simp)

/-- The words of a text, where `word` holds the characters of a word already begun, last one
first. -/
def wordsFrom (word : List Char) : List Char → List (List Char)
  | [] => if word.isEmpty then [] else [word.reverse]
  | c :: rest =>
    if isBlank c then
      if word.isEmpty then wordsFrom [] rest else word.reverse :: wordsFrom [] rest
    else
      wordsFrom (c :: word) rest

/-- The maximal runs of characters that are not blank, in order. -/
def words (text : List Char) : List (List Char) :=
  wordsFrom [] text

@[simp] theorem words_nil : words [] = [] := rfl

/-- A leading blank does not change the words. -/
theorem words_cons_of_isBlank {c : Char} (hc : isBlank c = true) (rest : List Char) :
    words (c :: rest) = words rest := by
  simp [words, wordsFrom, hc]

private theorem mem_wordsFrom {word text : List Char} (hword : ∀ c ∈ word, isBlank c = false)
    {found : List Char} (hfound : found ∈ wordsFrom word text) :
    found ≠ [] ∧ ∀ c ∈ found, isBlank c = false := by
  induction text generalizing word with
  | nil =>
    cases word with
    | nil => simp [wordsFrom] at hfound
    | cons first rest =>
      have heq : found = (first :: rest).reverse := by simpa [wordsFrom] using hfound
      subst heq
      exact ⟨by simp, fun c hc => hword c (List.mem_reverse.1 hc)⟩
  | cons c rest ih =>
    rw [wordsFrom] at hfound
    split at hfound
    · split at hfound
      · exact ih (by simp) hfound
      · next hempty =>
        rcases List.mem_cons.1 hfound with rfl | hlater
        · exact ⟨by simpa using hempty, fun d hd => hword d (List.mem_reverse.1 hd)⟩
        · exact ih (by simp) hlater
    · next hblank =>
      refine ih (fun d hd => ?_) hfound
      rcases List.mem_cons.1 hd with rfl | hd
      · simpa using hblank
      · exact hword d hd

/-- A word is not empty and holds no blank. -/
theorem ne_nil_and_not_isBlank_of_mem_words {text word : List Char} (h : word ∈ words text) :
    word ≠ [] ∧ ∀ c ∈ word, isBlank c = false :=
  mem_wordsFrom (by simp) h

end HackVm.Text
