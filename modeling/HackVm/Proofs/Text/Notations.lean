import HackVm.Proofs.Text.Numerals

/-!
# Notations of integers

An integer of the command line is written in decimal, with a minus sign if it is negative, or in
hexadecimal after `0x`, `0X` or `$`.  The notations agree: whatever number is written, with any
number of zeros in front and any blanks around it, is read back in each of them
(`integer_notations_agree`).

`Spells` says which texts write a number in a base, without mention of the reader.  That the digits
of such a text have the number as their value is shown for every base up to sixteen at once
(`valueOf_toDigits`).  What is left for each notation is to tell it from the others: a digit is no
sign and no mark (`not_mem_digits`).
-/

namespace HackVm.Text

/-! ## Texts for numbers -/

/-- The value of a digit does not depend on its case. -/
theorem digitIn?_toLower {base : Nat} (hbase : IsBase base) (c : Char) :
    digitIn? base c.toLower = digitIn? base c := by
  rw [digitIn?_eq_filter hbase, digitIn?_eq_filter hbase c]
  by_cases hupper : 65 ≤ c.toNat ∧ c.toNat ≤ 90
  · have hletters : ∀ code < 91, 65 ≤ code →
        digitIn? 16 (Char.ofNat code).toLower = digitIn? 16 (Char.ofNat code) := by decide
    have hcase := hletters c.toNat (by omega) hupper.1
    rw [Char.ofNat_toNat] at hcase
    rw [hcase]
  · have hsame : c.toLower = c := dif_neg (by simpa [UInt32.le_iff_toNat_le] using hupper)
    rw [hsame]

/-- Zeros in front do not count. -/
theorem valueOf_zeros_append {base : Nat} (hbase : IsBase base) (zeros : Nat)
    (digits : List Char) :
    valueOf base (digitsIn base (List.replicate zeros '0' ++ digits)) =
      valueOf base (digitsIn base digits) := by
  have hzero := digitIn?_zero hbase
  induction zeros with
  | zero => rfl
  | succ zeros ih =>
      rw [← ih, List.replicate_succ, List.cons_append, digitsIn, List.filterMap_cons_some hzero]
      simp [valueOf, digitsIn]

/-- The text writes the number in the base: with any number of zeros in front, and letters in
either case. -/
def Spells (base n : Nat) (text : String) : Prop :=
  ∃ zeros, text.toList.map Char.toLower = List.replicate zeros '0' ++ Nat.toDigits base n

namespace Spells

variable {base n : Nat} {text : String} (h : Spells base n text)
include h

theorem ne_nil : text.toList ≠ [] := by
  obtain ⟨zeros, htext⟩ := h
  intro hempty
  rw [hempty, List.map_nil] at htext
  exact Nat.toDigits_ne_nil (List.append_eq_nil_iff.mp htext.symm).2

theorem isSome_digitIn? (hbase : IsBase base) :
    ∀ c ∈ text.toList, (digitIn? base c).isSome = true := by
  obtain ⟨zeros, htext⟩ := h
  intro c hc
  have hlower : c.toLower ∈ List.replicate zeros '0' ++ Nat.toDigits base n :=
    htext ▸ List.mem_map_of_mem hc
  rw [← digitIn?_toLower hbase]
  rcases List.mem_append.mp hlower with hzero | hdigit
  · rw [List.eq_of_mem_replicate hzero, digitIn?_zero hbase]
    rfl
  · exact isSome_digitIn?_of_mem_toDigits hbase n hdigit

theorem valueOf_eq (hbase : IsBase base) :
    valueOf base (digitsIn base text.toList) = n := by
  obtain ⟨zeros, htext⟩ := h
  have hlower : digitsIn base (text.toList.map Char.toLower) = digitsIn base text.toList := by
    rw [digitsIn, List.filterMap_map]
    exact congrArg (fun read => List.filterMap read text.toList)
      (funext fun c => digitIn?_toLower hbase c)
  calc valueOf base (digitsIn base text.toList)
      = valueOf base (digitsIn base (List.replicate zeros '0' ++ Nat.toDigits base n)) := by
        rw [← hlower, htext]
    _ = n := by rw [valueOf_zeros_append hbase, valueOf_toDigits hbase]

/-- The text holds no blank. -/
theorem isBlank_eq_false (hbase : IsBase base) :
    ∀ c ∈ text.toList, isBlank c = false := by
  intro c hc
  exact isBlank_of_digitIn? (h.isSome_digitIn? hbase c hc)

/-- Nor does it hold one after a mark without blanks. -/
theorem isBlank_append (hbase : IsBase base) (mark : String)
    (hmark : mark.toList.any isBlank = false) :
    ∀ c ∈ (mark ++ text).toList, isBlank c = false := by
  intro c hc
  rw [String.toList_append] at hc
  rcases List.mem_append.mp hc with hfront | hdigit
  · exact Bool.eq_false_iff.mpr (List.any_eq_false.mp hmark c hfront)
  · exact h.isBlank_eq_false hbase c hdigit

end Spells

/-! ## Reading the notations -/

/-- Blanks around a notation do not count. -/
theorem readNotation_surrounded {before text after : String}
    (hbefore : ∀ c ∈ before.toList, isBlank c = true)
    (hafter : ∀ c ∈ after.toList, isBlank c = true)
    (htext : ∀ c ∈ text.toList, isBlank c = false) :
    readNotation (before ++ text ++ after) = readNotation text := by
  have hcore : trim (before ++ text ++ after).toList = trim text.toList := by
    rw [String.toList_append, String.toList_append, trim, trim, trimWhere_eq_self htext,
      trimWhere_surrounded hbefore htext hafter]
  rw [readNotation, hcore, readNotation]

section Decimal

variable {n : Nat} {digits : String} (h : Spells 10 n digits)
include h

/-- Decimal digits after a sign are read, unless there are too many of them. -/
private theorem readInt_decimal {text : String} {negative : Bool}
    (hblank : ∀ c ∈ text.toList, isBlank c = false)
    (hsign : takeSign text.toList = (negative, digits.toList)) :
    readInt 10 text =
      if digits.length ≤ 4300 then .ok (if negative then -(n : Int) else n)
      else .error (.tooManyDigits digits.length) := by
  have hdigits := h.isSome_digitIn? isBase_ten
  have hmark : (if (10 : Nat) == 16 then dropHexMark digits.toList else digits.toList) =
      digits.toList := rfl
  rw [readInt_of_digits 10 hblank hsign hmark h.ne_nil hdigits,
    h.valueOf_eq isBase_ten, String.length_toList]
  by_cases hlimit : digits.length ≤ 4300
  · rw [if_pos hlimit, if_neg fun hover => Nat.not_lt.mpr hlimit hover.2]
  · rw [if_neg hlimit, if_pos ⟨rfl, Nat.lt_of_not_le hlimit⟩]

theorem readNotation_decimal :
    readNotation digits =
      if digits.length ≤ 4300 then .ok (n : Int) else .error (.tooManyDigits digits.length) := by
  have hdigits := h.isSome_digitIn? isBase_ten
  have hblank := h.isBlank_eq_false isBase_ten
  -- Decimal digits hold none of the marks of base sixteen.
  have hread : readNotation digits = readInt 10 digits := by
    rw [readNotation, trim, trimWhere_eq_self hblank, String.ofList_toList]
    split
    · next hmark => exact absurd (by simp [hmark]) (not_mem_digits hdigits 'x' rfl)
    · next hmark => exact absurd (by simp [hmark]) (not_mem_digits hdigits 'X' rfl)
    · next hmark => exact absurd (by simp [hmark]) (not_mem_digits hdigits '$' rfl)
    · rfl
  rw [hread, readInt_decimal h hblank (takeSign_digits hdigits)]
  rfl

theorem readNotation_negative :
    readNotation ("-" ++ digits) =
      if digits.length ≤ 4300 then .ok (-n : Int) else .error (.tooManyDigits digits.length) := by
  have hblank := h.isBlank_append isBase_ten "-" (by decide)
  have htext : ("-" ++ digits).toList = '-' :: digits.toList := String.toList_append
  have hread : readNotation ("-" ++ digits) = readInt 10 ("-" ++ digits) := by
    rw [readNotation, trim, trimWhere_eq_self hblank, String.ofList_toList, htext]
    rfl
  rw [hread, readInt_decimal h hblank (by rw [htext, takeSign])]
  rfl

end Decimal

section Hexadecimal

variable {n : Nat} {digits : String} (h : Spells 16 n digits)
include h

/-- Hexadecimal digits are read after a mark or without one. -/
private theorem readInt_hexadecimal {text : String}
    (hblank : ∀ c ∈ text.toList, isBlank c = false)
    (hsign : takeSign text.toList = (false, text.toList))
    (hmark : dropHexMark text.toList = digits.toList) : readInt 16 text = .ok n := by
  have hdigits := h.isSome_digitIn? isBase_sixteen
  rw [readInt_of_digits 16 hblank hsign hmark h.ne_nil hdigits,
    h.valueOf_eq isBase_sixteen]
  rfl

private theorem dropHexMark_digits : dropHexMark digits.toList = digits.toList := by
  have hdigits := h.isSome_digitIn? isBase_sixteen
  unfold dropHexMark
  split
  · next zero letter rest hlist =>
    have hletter : ¬ (letter = 'x' ∨ letter = 'X') := by
      rintro (rfl | rfl)
      · exact absurd (by simp [hlist]) (not_mem_digits hdigits 'x' rfl)
      · exact absurd (by simp [hlist]) (not_mem_digits hdigits 'X' rfl)
    rw [if_neg (by simp [hletter]), hlist]
  · rfl

private theorem dropHexMark_marked {letter : Char} (hletter : letter = 'x' ∨ letter = 'X') :
    dropHexMark ('0' :: letter :: digits.toList) = digits.toList := by
  have hdigits := h.isSome_digitIn? isBase_sixteen
  have hzero : (digitValue? '0' == some 0) = true := by decide
  rw [dropHexMark, if_pos (by simp [hzero, hletter])]
  -- One underscore after the mark would be taken away as well.
  intro rest hlist
  exact absurd (by simp [hlist]) (not_mem_digits hdigits '_' rfl)

private theorem readNotation_marked {letter : Char} (hletter : letter = 'x' ∨ letter = 'X') :
    readNotation (String.ofList ['0', letter] ++ digits) = .ok n := by
  have hmark : (String.ofList ['0', letter]).toList.any isBlank = false := by
    rcases hletter with rfl | rfl <;> decide
  have hblank := h.isBlank_append isBase_sixteen _ hmark
  have htext : (String.ofList ['0', letter] ++ digits).toList = '0' :: letter :: digits.toList := by
    rw [String.toList_append, String.toList_ofList]
    rfl
  have hread : readNotation (String.ofList ['0', letter] ++ digits) =
      readInt 16 (String.ofList ['0', letter] ++ digits) := by
    rw [readNotation, trim, trimWhere_eq_self hblank, String.ofList_toList, htext]
    rcases hletter with rfl | rfl <;> rfl
  rw [hread]
  apply readInt_hexadecimal h hblank
  · rw [htext]
    rfl
  · rw [htext, dropHexMark_marked h hletter]

private theorem readNotation_dollar : readNotation ("$" ++ digits) = .ok n := by
  have hblank := h.isBlank_append isBase_sixteen "$" (by decide)
  have htext : ("$" ++ digits).toList = '$' :: digits.toList := String.toList_append
  have hread : readNotation ("$" ++ digits) = readInt 16 digits := by
    rw [readNotation, trim, trimWhere_eq_self hblank, htext]
    exact congrArg (readInt 16) String.ofList_toList
  rw [hread]
  apply readInt_hexadecimal h (h.isBlank_eq_false isBase_sixteen)
  · exact takeSign_digits (h.isSome_digitIn? isBase_sixteen)
  · exact dropHexMark_digits h

/-- The marks of base sixteen mean the same. -/
theorem readNotation_hexadecimal {mark : String} (hmark : mark ∈ ["0x", "0X", "$"]) :
    readNotation (mark ++ digits) = .ok n := by
  simp only [List.mem_cons, List.not_mem_nil, or_false] at hmark
  rcases hmark with rfl | rfl | rfl
  · exact readNotation_marked h (.inl rfl)
  · exact readNotation_marked h (.inr rfl)
  · exact readNotation_dollar h

end Hexadecimal

/-- A number is read back from each of its notations, with blanks around it, zeros in front of it
and hexadecimal letters in either case.  Decimal digits are refused for their number alone, when
there are more than 4300 of them; hexadecimal digits never are. -/
theorem integer_notations_agree (n : Nat) {before after : String}
    (hbefore : ∀ c ∈ before.toList, isBlank c = true)
    (hafter : ∀ c ∈ after.toList, isBlank c = true) :
    (∀ digits, Spells 10 n digits →
      readNotation (before ++ digits ++ after) =
        (if digits.length ≤ 4300 then .ok (n : Int)
          else .error (.tooManyDigits digits.length)) ∧
      readNotation (before ++ "-" ++ digits ++ after) =
        (if digits.length ≤ 4300 then .ok (-n : Int)
          else .error (.tooManyDigits digits.length))) ∧
    ∀ digits, Spells 16 n digits → ∀ mark ∈ ["0x", "0X", "$"],
      readNotation (before ++ mark ++ digits ++ after) = .ok (n : Int) := by
  refine ⟨fun digits h => ⟨?_, ?_⟩, fun digits h mark hmark => ?_⟩
  · have hblank := h.isBlank_eq_false isBase_ten
    rw [readNotation_surrounded hbefore hafter hblank, readNotation_decimal h]
  · have hblank := h.isBlank_append isBase_ten "-" (by decide)
    rw [@String.append_assoc before, readNotation_surrounded hbefore hafter hblank,
      readNotation_negative h]
  · have hmarks : ∀ mark ∈ ["0x", "0X", "$"], mark.toList.any isBlank = false := by decide
    have hblank := h.isBlank_append isBase_sixteen mark (hmarks mark hmark)
    rw [@String.append_assoc before, readNotation_surrounded hbefore hafter hblank,
      readNotation_hexadecimal h hmark]

theorem integer_notations_agree_sample :
    Spells 10 255 "00255" ∧ Spells 16 255 "0fF" ∧
      readNotation ("\t " ++ "00255" ++ "\n") = .ok 255 ∧
      readNotation ("\t " ++ "-" ++ "00255" ++ "\n") = .ok (-255) ∧
      ∀ mark ∈ ["0x", "0X", "$"], readNotation ("\t " ++ mark ++ "0fF" ++ "\n") = .ok 255 := by
  have hdecimal : Spells 10 255 "00255" := ⟨2, by decide +kernel⟩
  have hhexadecimal : Spells 16 255 "0fF" := ⟨1, by decide +kernel⟩
  obtain ⟨hten, hsixteen⟩ :=
    @integer_notations_agree 255 "\t " "\n" (List.all_eq_true.mp (by decide))
      (List.all_eq_true.mp (by decide))
  obtain ⟨hpositive, hnegative⟩ := hten _ hdecimal
  exact ⟨hdecimal, hhexadecimal, hpositive, hnegative, hsixteen _ hhexadecimal⟩

end HackVm.Text
