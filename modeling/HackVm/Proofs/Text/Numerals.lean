import HackVm.Text.Numeral

/-!
# Numerals

What is written in decimal can be told apart and read back.

* `naturalDigits_injective`: different numbers have different numerals.
* `append_natural_inj`: a text that ends in a separator and a numeral determines both what stands
  before the separator and the number, whatever stands before it.
* `valueOf_toDigits`: the digits of a number, in any base up to sixteen, have it as their value.
* `readInt_of_digits`: a numeral of base ten or sixteen is read as its sign and the value of its
  digits.
* `readInt_digits`: a text of decimal digits, of any scripts, is read as its value in base ten, up
  to the digit limit.
* `readInt_natural`: a numeral within the digit limit is read as the number it was written for.
-/

namespace HackVm.Text

/-! ## The signs of a numeral -/

/-- The signs of a numeral are ASCII digits. -/
theorem isDigit_of_mem_naturalDigits {n : Nat} {c : Char} (hc : c ∈ naturalDigits n) :
    c.isDigit = true :=
  Nat.isDigit_of_mem_toDigits (by decide) (by decide) hc

/-- A numeral has at least one sign. -/
theorem naturalDigits_ne_nil (n : Nat) : naturalDigits n ≠ [] :=
  Nat.toDigits_ne_nil

@[simp] theorem toList_natural (n : Nat) : (natural n).toList = naturalDigits n :=
  String.toList_ofList

@[simp] theorem decimal_natCast (n : Nat) : decimal n = natural n := by
  have hnonneg : ¬ (n : Int) < 0 := Int.not_lt.mpr (Int.natCast_nonneg n)
  rw [decimal, if_neg hnonneg, Int.natAbs_natCast]

/-- A number that is not negative is written without a sign. -/
theorem decimal_of_nonneg {n : Int} (hn : 0 ≤ n) : decimal n = natural n.toNat := by
  obtain ⟨m, rfl⟩ := Int.eq_ofNat_of_zero_le hn
  exact decimal_natCast m

private theorem code_of_isDigit {c : Char} (hc : c.isDigit = true) :
    48 ≤ c.toNat ∧ c.toNat ≤ 57 := by
  simp only [Char.isDigit, Bool.and_eq_true, decide_eq_true_eq, ge_iff_le, UInt32.le_iff_toNat_le]
    at hc
  exact hc

/-! ## Numerals determine numbers -/

/-- Different numbers have different digits. -/
theorem naturalDigits_injective {m n : Nat} (h : naturalDigits m = naturalDigits n) : m = n := by
  have hvalue := congrArg (fun digits => Nat.ofDigitChars 10 digits 0) h
  simpa [naturalDigits] using hvalue

private theorem append_cons_inj {first second : List Char} {c : Char} {left right : List Char}
    (hleft : ∀ d ∈ left, d ≠ c) (hright : ∀ d ∈ right, d ≠ c)
    (h : first ++ c :: left = second ++ c :: right) : first = second ∧ left = right := by
  induction first generalizing second with
  | nil =>
      cases second with
      | nil => exact ⟨rfl, (List.cons.inj h).2⟩
      | cons a second =>
          obtain ⟨-, htail⟩ := List.cons.inj h
          exact absurd rfl (hleft c (by simp [htail]))
  | cons a first ih =>
      cases second with
      | nil =>
          obtain ⟨-, htail⟩ := List.cons.inj h
          exact absurd rfl (hright c (by simp [← htail]))
      | cons b second =>
          obtain ⟨rfl, htail⟩ := List.cons.inj h
          obtain ⟨rfl, rfl⟩ := ih htail
          exact ⟨rfl, rfl⟩

/-- A text, a separator that is no digit, and a numeral: the whole determines the parts.  Nothing
is asked of the text in front, which may hold separators and digits itself. -/
theorem append_natural_inj {first second : List Char} {m n : Nat} {separator : Char}
    (hseparator : separator.isDigit = false)
    (h : first ++ separator :: naturalDigits m = second ++ separator :: naturalDigits n) :
    first = second ∧ m = n := by
  have hdigits : ∀ k, ∀ d ∈ naturalDigits k, d ≠ separator := by
    rintro k d hd rfl
    rw [isDigit_of_mem_naturalDigits hd] at hseparator
    exact absurd hseparator (by decide)
  obtain ⟨hfront, hback⟩ := append_cons_inj (hdigits m) (hdigits n) h
  exact ⟨hfront, naturalDigits_injective hback⟩

/-- A number within the digit limit has no more digits than the limit. -/
theorem length_naturalDigits_le {n : Nat} {value : Int} (hvalue : value.natAbs = n)
    (hwritable : isWritable value = true) : (naturalDigits n).length ≤ maxDigits := by
  unfold isWritable at hwritable
  generalize hlimit : maxDigits = limit at hwritable ⊢
  have hpos : 0 < limit := by rw [← hlimit]; decide
  rw [naturalDigits, Nat.length_toDigits_le_iff (by decide) hpos, ← hvalue]
  exact of_decide_eq_true hwritable

theorem isWritable_of_lt {value : Int} (h : value.natAbs < 10) : isWritable value = true := by
  have hpos : 1 ≤ maxDigits := by decide
  unfold isWritable
  generalize maxDigits = limit at hpos ⊢
  have hlimit : 10 ^ 1 ≤ 10 ^ limit := Nat.pow_le_pow_right (by decide) hpos
  exact decide_eq_true (Nat.lt_of_lt_of_le h hlimit)

/-! ## Decimal digits of every script -/

/-- An ASCII digit has the value of its place after zero. -/
theorem digitValue?_of_isDigit {c : Char} (hc : c.isDigit = true) :
    digitValue? c = some (c.toNat - 48) := by
  obtain ⟨hlow, hhigh⟩ := code_of_isDigit hc
  have hzero : (48 ≤ c.toNat && c.toNat ≤ 48 + 9) = true := by
    simp only [Bool.and_eq_true, decide_eq_true_eq]
    omega
  rw [digitValue?, digitZeros, List.find?_cons, hzero]
  rfl

theorem isDecimalDigit_of_isDigit {c : Char} (hc : c.isDigit = true) : isDecimalDigit c = true := by
  rw [isDecimalDigit, digitValue?_of_isDigit hc]
  rfl

-- The gaps between the bounds are where the blanks, the signs and the underscore are.
private theorem code_of_isDecimalDigit {c : Char} (hc : isDecimalDigit c = true) :
    (48 ≤ c.toNat ∧ c.toNat ≤ 57) ∨ (0x660 ≤ c.toNat ∧ c.toNat < 0x1680) ∨
      (0x1680 < c.toNat ∧ c.toNat < 0x2000) ∨ 0x3000 < c.toNat := by
  obtain ⟨value, hvalue⟩ := Option.isSome_iff_exists.mp hc
  obtain ⟨first, hfind, -⟩ := Option.map_eq_some_iff.mp hvalue
  have hrange := List.find?_some hfind
  simp only [Bool.and_eq_true, decide_eq_true_eq] at hrange
  have hzeros : ∀ least ∈ digitZeros, least = 48 ∨ (0x660 ≤ least ∧ least + 9 < 0x1680) ∨
      (0x1680 < least ∧ least + 9 < 0x2000) ∨ 0x3000 < least := by decide
  have hfirst := hzeros first (List.mem_of_find?_eq_some hfind)
  omega

/-- A digit of any script is no blank. -/
theorem isBlank_of_isDecimalDigit {c : Char} (hc : isDecimalDigit c = true) :
    isBlank c = false := by
  have hcode := code_of_isDecimalDigit hc
  have hnot : ¬ isBlank c = true := by
    simp only [isBlank, Bool.or_eq_true, Bool.and_eq_true, decide_eq_true_eq, beq_iff_eq]
    omega
  simpa using hnot

/-- A digit is no blank. -/
theorem isBlank_of_isDigit {c : Char} (hc : c.isDigit = true) : isBlank c = false :=
  isBlank_of_isDecimalDigit (isDecimalDigit_of_isDigit hc)

private theorem digitIn?_of_isDecimalDigit {c : Char} (hc : isDecimalDigit c = true) :
    digitIn? 10 c = digitValue? c := by
  obtain ⟨value, hvalue⟩ := Option.isSome_iff_exists.mp hc
  simp [digitIn?, hvalue, digitValue?_lt hvalue]

private theorem isSome_digitIn?_of_isDecimalDigit {c : Char} (hc : isDecimalDigit c = true) :
    (digitIn? 10 c).isSome = true := by
  rw [digitIn?_of_isDecimalDigit hc]
  exact hc

/-- The digit values of a text. -/
def digitValues (text : List Char) : List Nat :=
  text.filterMap digitValue?

private theorem digitsIn_digits {text : List Char} (htext : ∀ c ∈ text, isDecimalDigit c = true) :
    digitsIn 10 text = digitValues text := by
  induction text with
  | nil => rfl
  | cons c rest ih =>
      have hc := digitIn?_of_isDecimalDigit (htext c (List.mem_cons_self ..))
      have hrest := ih fun d hd => htext d (List.mem_cons_of_mem _ hd)
      rw [digitsIn, digitValues] at hrest ⊢
      rw [List.filterMap_cons, List.filterMap_cons, hc, hrest]

/-! ## Positional systems -/

/-- The bases whose digits are decimal digits and letters up to `f`. -/
structure IsBase (base : Nat) : Prop where
  one_lt : 1 < base
  le_sixteen : base ≤ 16

theorem isBase_ten : IsBase 10 := ⟨by decide, by decide⟩

theorem isBase_sixteen : IsBase 16 := ⟨by decide, by decide⟩

section Positional

variable {base : Nat} (hbase : IsBase base)
include hbase

theorem IsBase.pos : 0 < base :=
  Nat.zero_lt_of_lt hbase.one_lt

private theorem IsBase.div_lt {n : Nat} (hlarge : ¬ n < base) : n / base < n :=
  Nat.div_lt_self (Nat.lt_of_lt_of_le hbase.pos (Nat.not_lt.mp hlarge)) hbase.one_lt

/-- A smaller base has fewer digits, with the same values. -/
theorem digitIn?_eq_filter (c : Char) :
    digitIn? base c = (digitIn? 16 c).filter (· < base) := by
  have hle := hbase.le_sixteen
  simp only [digitIn?, Option.filter_filter]
  congr 1
  funext value
  simp only [← Bool.decide_and, decide_eq_decide]
  omega

theorem digitIn?_digitChar {digit : Nat} (hdigit : digit < base) :
    digitIn? base (Nat.digitChar digit) = some digit := by
  have hsixteen : ∀ digit < 16, digitIn? 16 (Nat.digitChar digit) = some digit := by decide
  rw [digitIn?_eq_filter hbase, hsixteen digit (Nat.lt_of_lt_of_le hdigit hbase.le_sixteen)]
  simp [hdigit]

theorem digitIn?_zero : digitIn? base '0' = some 0 :=
  digitIn?_digitChar hbase hbase.pos

/-- A number is written with digits of the base. -/
theorem isSome_digitIn?_of_mem_toDigits (n : Nat) {c : Char} (hc : c ∈ Nat.toDigits base n) :
    (digitIn? base c).isSome = true := by
  induction n using Nat.strongRecOn with
  | ind n ih =>
      rw [Nat.toDigits_eq_if hbase.one_lt] at hc
      split at hc
      · next hsmall =>
        rw [List.mem_singleton.mp hc, digitIn?_digitChar hbase hsmall]
        rfl
      · next hlarge =>
        rcases List.mem_append.mp hc with hfront | hlast
        · exact ih (n / base) (hbase.div_lt hlarge) hfront
        · rw [List.mem_singleton.mp hlast, digitIn?_digitChar hbase (Nat.mod_lt n hbase.pos)]
          rfl

/-- The digits of a number have it as their value. -/
theorem valueOf_toDigits (n : Nat) : valueOf base (digitsIn base (Nat.toDigits base n)) = n := by
  -- The last digit is the remainder, and the digits before it write the quotient.
  induction n using Nat.strongRecOn with
  | ind n ih =>
      rw [Nat.toDigits_eq_if hbase.one_lt]
      split
      · next hsmall => simp [digitsIn, valueOf, digitIn?_digitChar hbase hsmall]
      · next hlarge =>
        have hlast : digitIn? base (Nat.digitChar (n % base)) = some (n % base) :=
          digitIn?_digitChar hbase (Nat.mod_lt n hbase.pos)
        have hfront := ih (n / base) (hbase.div_lt hlarge)
        simp only [valueOf, digitsIn] at hfront ⊢
        rw [List.filterMap_append, List.foldl_append, hfront]
        simp [hlast, Nat.div_add_mod']

end Positional

/-! ## Digits of a base -/

/-- A digit is a decimal digit or one of the letters up to `f`. -/
private theorem code_of_digitIn? {base : Nat} {c : Char} (hc : (digitIn? base c).isSome = true) :
    isDecimalDigit c = true ∨ (65 ≤ c.toNat ∧ c.toNat ≤ 70) ∨ (97 ≤ c.toNat ∧ c.toNat ≤ 102) := by
  by_cases hdecimal : isDecimalDigit c = true
  · exact .inl hdecimal
  right
  have hnone : digitValue? c = none := by simpa [isDecimalDigit] using hdecimal
  simp only [digitIn?, hnone, Option.none_or] at hc
  split at hc
  · next hlower =>
    simp only [Bool.and_eq_true, decide_eq_true_eq, Char.le_def, UInt32.le_iff_toNat_le] at hlower
    exact .inr hlower
  · split at hc
    · next hupper =>
      simp only [Bool.and_eq_true, decide_eq_true_eq, Char.le_def, UInt32.le_iff_toNat_le] at hupper
      exact .inl hupper
    · exact absurd hc (by simp)

/-- A digit is no blank. -/
theorem isBlank_of_digitIn? {base : Nat} {c : Char} (hc : (digitIn? base c).isSome = true) :
    isBlank c = false := by
  rcases code_of_digitIn? hc with hdecimal | hletter
  · exact isBlank_of_isDecimalDigit hdecimal
  · have hnot : ¬ isBlank c = true := by
      simp only [isBlank, Bool.or_eq_true, Bool.and_eq_true, decide_eq_true_eq, beq_iff_eq]
      omega
    simpa using hnot

section Digits

variable {base : Nat} {text : List Char} (htext : ∀ c ∈ text, (digitIn? base c).isSome = true)
include htext

/-- A character that is no digit does not occur among digits. -/
theorem not_mem_digits (c : Char) (hc : (digitIn? base c).isSome = false) : c ∉ text := by
  intro hmem
  rw [htext c hmem] at hc
  exact absurd hc (by decide)

private theorem length_digitsIn : (digitsIn base text).length = text.length := by
  induction text with
  | nil => rfl
  | cons c rest ih =>
      obtain ⟨value, hvalue⟩ := Option.isSome_iff_exists.mp (htext c (List.mem_cons_self ..))
      have hrest := ih fun d hd => htext d (List.mem_cons_of_mem _ hd)
      rw [digitsIn, List.filterMap_cons_some hvalue, List.length_cons, List.length_cons, ← hrest]
      rfl

private theorem isGrouped_digits (due : Bool) (hdue : due = true → text ≠ []) :
    isGrouped due text = true := by
  induction text generalizing due with
  | nil =>
      cases due with
      | false => rfl
      | true => exact absurd rfl (hdue rfl)
  | cons c rest ih =>
      have hne : c ≠ '_' := by
        rintro rfl
        exact not_mem_digits htext _ rfl (List.mem_cons_self ..)
      rw [isGrouped, if_neg (by simpa using hne)]
      exact ih (fun d hd => htext d (List.mem_cons_of_mem _ hd)) false (by simp)

/-- Digits have no sign. -/
theorem takeSign_digits : takeSign text = (false, text) := by
  rw [takeSign]
  · rintro rest rfl
    exact not_mem_digits htext _ rfl (List.mem_cons_self ..)
  · rintro rest rfl
    exact not_mem_digits htext _ rfl (List.mem_cons_self ..)

private theorem takeWhile_digits : text.takeWhile (isNumeralPart base) = text := by
  have hpart : ∀ c ∈ text, isNumeralPart base c = true := by
    intro c hc
    simp [isNumeralPart, htext c hc]
  simpa using @List.takeWhile_append_of_pos _ _ _ [] hpart

/-- Digits are read as their value.  Only base ten has a limit to their number. -/
theorem readNatural?_digits (hne : text ≠ []) :
    readNatural? base text =
      if base = 10 ∧ maxDigits < text.length then some (.error (.tooManyDigits text.length))
      else some (.ok (valueOf base (digitsIn base text))) := by
  have hgrouped : isGrouped true text = true := isGrouped_digits htext true fun _ => hne
  simp [readNatural?, takeWhile_digits htext, hgrouped, length_digitsIn htext]

end Digits

theorem length_digitValues {text : List Char} (htext : ∀ c ∈ text, isDecimalDigit c = true) :
    (digitValues text).length = text.length := by
  rw [← digitsIn_digits htext]
  exact length_digitsIn fun c hc => isSome_digitIn?_of_isDecimalDigit (htext c hc)

/-! ## Reading a numeral -/

/-- A numeral without blanks is read as its sign and the value of its digits. -/
theorem readInt_of_digits (base : Nat) {text : String} {negative : Bool} {body digits : List Char}
    (hblank : ∀ c ∈ text.toList, isBlank c = false)
    (hsign : takeSign text.toList = (negative, body))
    (hmark : (if base == 16 then dropHexMark body else body) = digits) (hne : digits ≠ [])
    (hdigits : ∀ c ∈ digits, (digitIn? base c).isSome = true) :
    readInt base text =
      if base = 10 ∧ maxDigits < digits.length then .error (.tooManyDigits digits.length)
      else .ok (if negative then -(valueOf base (digitsIn base digits) : Int)
        else valueOf base (digitsIn base digits)) := by
  have htrim : trimWhere isNumeralBlank text.toList = text.toList :=
    trimWhere_eq_self fun c hc => by simp [isNumeralBlank, hblank c hc]
  rw [readInt, htrim, hsign, hmark, readNatural?_digits hdigits hne]
  by_cases hlimit : base = 10 ∧ maxDigits < digits.length
  · simp only [if_pos hlimit]
  · simp only [if_neg hlimit]

/-- A text of decimal digits is read as its value in base ten, if it is within the digit limit. -/
theorem readInt_digits {word : String} (hne : word.toList ≠ [])
    (hword : ∀ c ∈ word.toList, isDecimalDigit c = true) :
    readInt 10 word =
      if maxDigits < word.toList.length then .error (.tooManyDigits word.toList.length)
      else .ok (valueOf 10 (digitValues word.toList) : Nat) := by
  have hdigits : ∀ c ∈ word.toList, (digitIn? 10 c).isSome = true := fun c hc =>
    isSome_digitIn?_of_isDecimalDigit (hword c hc)
  have hmark : (if (10 : Nat) == 16 then dropHexMark word.toList else word.toList) = word.toList :=
    rfl
  rw [readInt_of_digits 10 (fun c hc => isBlank_of_isDecimalDigit (hword c hc))
    (takeSign_digits hdigits) hmark hne hdigits, digitsIn_digits hword]
  simp

theorem isDecimalDigit_of_mem_naturalDigits {n : Nat} {c : Char} (hc : c ∈ naturalDigits n) :
    isDecimalDigit c = true :=
  isDecimalDigit_of_isDigit (isDigit_of_mem_naturalDigits hc)

/-- The decimal digits of a number have it as their value. -/
theorem valueOf_digitValues_naturalDigits (n : Nat) :
    valueOf 10 (digitValues (naturalDigits n)) = n := by
  rw [← digitsIn_digits fun _ => isDecimalDigit_of_mem_naturalDigits]
  exact valueOf_toDigits isBase_ten n

/-- A numeral is read as the number that was written, if it is within the digit limit. -/
theorem readInt_natural (n : Nat) :
    readInt 10 (natural n) =
      if maxDigits < (naturalDigits n).length then
        .error (.tooManyDigits (naturalDigits n).length)
      else .ok n := by
  have hne : (natural n).toList ≠ [] := by simpa using naturalDigits_ne_nil n
  have hdigits : ∀ c ∈ (natural n).toList, isDecimalDigit c = true := by
    intro c hc
    exact isDecimalDigit_of_mem_naturalDigits (by simpa using hc)
  rw [readInt_digits hne hdigits, toList_natural, valueOf_digitValues_naturalDigits]

end HackVm.Text
