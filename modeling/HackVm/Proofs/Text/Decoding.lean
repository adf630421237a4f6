import HackVm.Proofs.Text.Lines
import HackVm.Text.Utf8

/-!
# Reading back what was written

A text that is written to a file in UTF-8 is read back as it was (`decode_encode`).  A character is
written as a first byte, which tells how many bytes follow and within which bounds, and the bytes
that follow, six bits each.

```text
code points          first byte   bytes that follow
0       .. 7F        00 .. 7F     none
80      .. 7FF       C2 .. DF     one
800     .. FFFF      E0 .. EF     two, the first of them from A0 on after E0, up to 9F after ED
10000   .. 10FFFF    F0 .. F4     three, the first of them from 90 on after F0, up to 8F after F4
```

The narrower bounds are met because no character has a longer form than it needs, or one of the
code points D800 to DFFF, or one beyond 10FFFF.

Reading also folds newlines, which a text does not survive.  Its lines do: both halves of a double
break, and each half alone, end a line once before and once after (`lines_foldNewlines`).
-/

namespace HackVm.Text

/-! ## Sequences of bytes -/

/-- The bytes of a character that was read already are skipped. -/
private theorem decodeFrom_skip (start : Nat) (tail rest : Bytes) :
    decodeFrom start tail.length (tail ++ rest) = decodeFrom (start + tail.length) 0 rest := by
  induction tail generalizing start with
  | nil => rfl
  | cons byte tail ih =>
      rw [List.length_cons, List.cons_append, decodeFrom, ih]
      congr 1
      omega

/-- A first byte and the bytes that it asks for are one character. -/
private theorem decodeFrom_sequence {first : UInt8} {tail rest : Bytes} {bounds : List (Nat × Nat)}
    {bits code : Nat} (hshape : sequenceShape? first.toNat = some (bounds, bits))
    (hlength : bounds.length = tail.length)
    (hcode : continuation bits 1 bounds (tail ++ rest) = .ok code) (start : Nat) :
    decodeFrom start 0 (first :: tail ++ rest) =
      (decodeFrom (start + 1 + tail.length) 0 rest).map (Char.ofNat code :: ·) := by
  rw [List.cons_append, decodeFrom]
  simp only [hshape, hcode, hlength, decodeFrom_skip]
  cases decodeFrom (start + 1 + tail.length) 0 rest <;> rfl

private theorem continuation_cons {low high : Nat} {byte : UInt8}
    (hbyte : low ≤ byte.toNat ∧ byte.toNat ≤ high) (code fitted : Nat)
    (bounds : List (Nat × Nat)) (rest : Bytes) :
    continuation code fitted ((low, high) :: bounds) (byte :: rest) =
      continuation (code * 64 + byte.toNat % 64) (fitted + 1) bounds rest := by
  rw [continuation, if_pos (by simpa using hbyte)]

/-- The bytes are those of one character, and are read as its code. -/
private def IsSequence (bytes : Bytes) (code : Nat) : Prop :=
  ∃ first tail bounds bits, bytes = first :: tail ∧
    sequenceShape? first.toNat = some (bounds, bits) ∧ bounds.length = tail.length ∧
    ∀ rest, continuation bits 1 bounds (tail ++ rest) = .ok code

private theorem decodeFrom_append {bytes : Bytes} {code : Nat} (h : IsSequence bytes code)
    (rest : Bytes) (start : Nat) :
    decodeFrom start 0 (bytes ++ rest) =
      (decodeFrom (start + bytes.length) 0 rest).map (Char.ofNat code :: ·) := by
  obtain ⟨first, tail, bounds, bits, rfl, hshape, hlength, hcode⟩ := h
  rw [decodeFrom_sequence hshape hlength (hcode rest), List.length_cons, Nat.add_assoc,
    Nat.add_comm 1]

/-! ## Characters -/

section Sizes

variable {code : Nat}

private theorem toNat_byte {n : Nat} (h : n < 256) : (UInt8.ofNat n).toNat = n :=
  UInt8.toNat_ofNat_of_lt h

/-- A byte that follows another holds six bits. -/
private theorem toNat_following (n : Nat) :
    (UInt8.ofNat (n % 64 + 0x80)).toNat = n % 64 + 0x80 :=
  toNat_byte (by omega)

private theorem isSequence_one (h : code ≤ 0x7F) : IsSequence [UInt8.ofNat code] code := by
  refine ⟨_, _, [], code, rfl, ?_, rfl, fun _ => rfl⟩
  rw [toNat_byte (by omega), sequenceShape?, if_pos (by omega)]

private theorem isSequence_two (hlow : 0x7F < code) (hhigh : code ≤ 0x7FF) :
    IsSequence [UInt8.ofNat (code / 64 % 0x20 + 0xC0), UInt8.ofNat (code % 0x40 + 0x80)] code := by
  have hfirst : (UInt8.ofNat (code / 64 % 0x20 + 0xC0)).toNat = code / 64 + 0xC0 := by
    rw [toNat_byte (by omega)]
    omega
  refine ⟨_, _, [(0x80, 0xBF)], code / 64, rfl, ?_, rfl, fun rest => ?_⟩
  · rw [hfirst, sequenceShape?, if_neg (by omega), if_neg (by omega), if_pos (by omega),
      Nat.add_sub_cancel]
  · rw [List.singleton_append, continuation_cons (by rw [toNat_following]; omega), toNat_following,
      continuation]
    congr 1
    omega

private theorem isSequence_three (hlow : 0x7FF < code) (hhigh : code ≤ 0xFFFF)
    (hvalid : code < 0xD800 ∨ 0xDFFF < code) :
    IsSequence [UInt8.ofNat (code / 4096 % 0x10 + 0xE0), UInt8.ofNat (code / 64 % 0x40 + 0x80),
      UInt8.ofNat (code % 0x40 + 0x80)] code := by
  have hfirst : (UInt8.ofNat (code / 4096 % 0x10 + 0xE0)).toNat = code / 4096 + 0xE0 := by
    rw [toNat_byte (by omega)]
    omega
  obtain ⟨low, high, hshape, hbounds⟩ : ∃ low high,
      sequenceShape? (code / 4096 + 0xE0) = some ([(low, high), (0x80, 0xBF)], code / 4096) ∧
      low ≤ code / 64 % 64 + 0x80 ∧ code / 64 % 64 + 0x80 ≤ high := by
    by_cases hnone : code / 4096 = 0
    · exact ⟨0xA0, 0xBF, by rw [hnone]; rfl, by omega⟩
    · by_cases hmiddle : code / 4096 = 0xD
      · exact ⟨0x80, 0x9F, by rw [hmiddle]; rfl, by omega⟩
      · refine ⟨0x80, 0xBF, ?_, by omega⟩
        rw [sequenceShape?, if_neg (by omega), if_neg (by omega), if_neg (by omega),
          if_neg (by simp [hnone]), if_neg (by simp; omega), if_pos (by omega), Nat.add_sub_cancel]
  refine ⟨_, _, [(low, high), (0x80, 0xBF)], code / 4096, rfl, by rw [hfirst, hshape], rfl,
    fun rest => ?_⟩
  rw [List.cons_append, List.singleton_append,
    continuation_cons (by rw [toNat_following]; exact hbounds),
    continuation_cons (by rw [toNat_following]; omega), toNat_following, toNat_following,
    continuation]
  congr 1
  omega

private theorem isSequence_four (hlow : 0xFFFF < code) (hhigh : code < 0x110000) :
    IsSequence [UInt8.ofNat (code / 262144 % 0x08 + 0xF0), UInt8.ofNat (code / 4096 % 0x40 + 0x80),
      UInt8.ofNat (code / 64 % 0x40 + 0x80), UInt8.ofNat (code % 0x40 + 0x80)] code := by
  have hfirst : (UInt8.ofNat (code / 262144 % 0x08 + 0xF0)).toNat = code / 262144 + 0xF0 := by
    rw [toNat_byte (by omega)]
    omega
  obtain ⟨low, high, hshape, hbounds⟩ : ∃ low high,
      sequenceShape? (code / 262144 + 0xF0) =
        some ([(low, high), (0x80, 0xBF), (0x80, 0xBF)], code / 262144) ∧
      low ≤ code / 4096 % 64 + 0x80 ∧ code / 4096 % 64 + 0x80 ≤ high := by
    by_cases hnone : code / 262144 = 0
    · exact ⟨0x90, 0xBF, by rw [hnone]; rfl, by omega⟩
    · by_cases hlast : code / 262144 = 4
      · exact ⟨0x80, 0x8F, by rw [hlast]; rfl, by omega⟩
      · refine ⟨0x80, 0xBF, ?_, by omega⟩
        rw [sequenceShape?, if_neg (by omega), if_neg (by omega), if_neg (by omega),
          if_neg (by simp), if_neg (by simp), if_neg (by omega), if_neg (by simp [hnone]),
          if_pos (by omega), Nat.add_sub_cancel]
  refine ⟨_, _, [(low, high), (0x80, 0xBF), (0x80, 0xBF)], code / 262144, rfl,
    by rw [hfirst, hshape], rfl, fun rest => ?_⟩
  rw [List.cons_append, List.cons_append, List.singleton_append,
    continuation_cons (by rw [toNat_following]; exact hbounds),
    continuation_cons (by rw [toNat_following]; omega),
    continuation_cons (by rw [toNat_following]; omega), toNat_following, toNat_following,
    toNat_following, continuation]
  congr 1
  omega

end Sizes

private theorem isSequence_encode (c : Char) : IsSequence (String.utf8EncodeChar c) c.toNat := by
  have hvalid : c.toNat < 0xD800 ∨ (0xDFFF < c.toNat ∧ c.toNat < 0x110000) := c.valid
  unfold String.utf8EncodeChar
  rw [show c.val.toNat = c.toNat from rfl]
  dsimp only
  split
  · next hone => exact isSequence_one hone
  · split
    · exact isSequence_two (by omega) (by omega)
    · split
      · exact isSequence_three (by omega) (by omega) (by omega)
      · exact isSequence_four (by omega) (by omega)

private theorem decodeFrom_flatMap (chars : List Char) (start : Nat) :
    decodeFrom start 0 (chars.flatMap String.utf8EncodeChar) = .ok chars := by
  induction chars generalizing start with
  | nil => rfl
  | cons c rest ih =>
      rw [List.flatMap_cons, decodeFrom_append (isSequence_encode c), ih, Char.ofNat_toNat]
      rfl

/-- What was written is read back. -/
theorem decode_encode (text : String) : decode (encode text) = .ok text := by
  rw [decode, encode, decodeFrom_flatMap]
  exact congrArg Except.ok String.ofList_toList

/-! ## Lines -/

private theorem foldNewlines_cons {c : Char} {rest : List Char}
    (hdouble : ∀ later, c = '\r' → rest = '\n' :: later → False) :
    foldNewlines (c :: rest) = (if c == '\r' then '\n' else c) :: foldNewlines rest := by
  rw [foldNewlines]
  exact hdouble

/-- A text with folded newlines has the lines that it had before. -/
theorem linesFrom_foldNewlines (begun text : List Char) :
    linesFrom begun (foldNewlines text) = linesFrom begun text := by
  induction begun, text using linesFrom.induct with
  | case1 begun _ => rfl
  | case2 begun _ => rfl
  | case3 begun rest ih => rw [foldNewlines, linesFrom_feed_cons, ih, linesFrom]
  | case4 begun c rest hdouble hbreak ih =>
      rw [foldNewlines_cons hdouble, linesFrom_cons_eq hdouble, if_pos hbreak, ← ih]
      by_cases hreturn : c = '\r'
      · rw [if_pos (beq_iff_eq.mpr hreturn), linesFrom_feed_cons]
      · rw [if_neg (by simpa using hreturn), linesFrom_cons_eq fun _ hc _ => hreturn hc,
          if_pos hbreak]
  | case5 begun c rest hdouble hbreak ih =>
      have hnone : isLineBreak c = false := Bool.eq_false_iff.mpr hbreak
      have hreturn : c ≠ '\r' := by
        rintro rfl
        exact absurd hnone (by decide)
      rw [foldNewlines_cons hdouble, if_neg (by simpa using hreturn), linesFrom_cons hnone,
        linesFrom_cons hnone, ih]

theorem lines_foldNewlines (text : String) :
    lines (String.ofList (foldNewlines text.toList)) = lines text := by
  rw [lines, String.toList_ofList, linesFrom_foldNewlines, lines]

end HackVm.Text
