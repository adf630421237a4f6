import HackVm.Text.Numeral

/-!
# UTF-8

Files hold bytes.  `encode` writes a text in UTF-8 and `decode` reads it back, refusing bytes that
are not well formed.  A refusal tells where the offending bytes start and how many they are: the
longest beginning of a well-formed sequence, or the single byte that can start none.
-/

namespace HackVm.Text

/-- The content of a file. -/
abbrev Bytes := List UInt8

/-- How a byte sequence fails to be UTF-8. -/
inductive Utf8Reason where
  /-- The byte starts no sequence. -/
  | startByte
  /-- A sequence is broken off by a byte that does not continue it. -/
  | continuationByte
  /-- The bytes end inside a sequence. -/
  | endOfData
  deriving DecidableEq, Repr

/-- The wording of a reason. -/
def Utf8Reason.message : Utf8Reason → String
  | .startByte => "invalid start byte"
  | .continuationByte => "invalid continuation byte"
  | .endOfData => "unexpected end of data"

/-- Bytes that are not UTF-8: the position of the first offending byte, its value, the number of
offending bytes and the reason. -/
structure Utf8Error where
  start : Nat
  first : UInt8
  length : Nat
  reason : Utf8Reason
  deriving DecidableEq, Repr

/-- The wording of a decoding error. -/
def Utf8Error.message (e : Utf8Error) : String :=
  let place :=
    if e.length == 1 then
      "byte 0x" ++ String.ofList (hexDigits 2 e.first.toNat) ++ " in position " ++ natural e.start
    else
      "bytes in position " ++ natural e.start ++ "-" ++ natural (e.start + e.length - 1)
  "'utf-8' codec can't decode " ++ place ++ ": " ++ e.reason.message

/-- The bounds of each continuation byte that a first byte asks for, and the bits of the first
byte.  `none` for a byte that starts no sequence. -/
def sequenceShape? (first : Nat) : Option (List (Nat × Nat) × Nat) :=
  if first < 0x80 then some ([], first)
  else if first < 0xC2 then none
  else if first < 0xE0 then some ([(0x80, 0xBF)], first - 0xC0)
  else if first == 0xE0 then some ([(0xA0, 0xBF), (0x80, 0xBF)], 0)
  else if first == 0xED then some ([(0x80, 0x9F), (0x80, 0xBF)], 0xD)
  else if first < 0xF0 then some ([(0x80, 0xBF), (0x80, 0xBF)], first - 0xE0)
  else if first == 0xF0 then some ([(0x90, 0xBF), (0x80, 0xBF), (0x80, 0xBF)], 0)
  else if first < 0xF4 then some ([(0x80, 0xBF), (0x80, 0xBF), (0x80, 0xBF)], first - 0xF0)
  else if first == 0xF4 then some ([(0x80, 0x8F), (0x80, 0xBF), (0x80, 0xBF)], 4)
  else none

/-- Reads the continuation bytes within their bounds and adds their bits to `code`.  On failure,
the number of bytes that fitted and whether the data ended. -/
def continuation (code fitted : Nat) : List (Nat × Nat) → Bytes → Except (Nat × Utf8Reason) Nat
  | [], _ => .ok code
  | _ :: _, [] => .error (fitted, .endOfData)
  | (low, high) :: bounds, byte :: rest =>
    if low ≤ byte.toNat && byte.toNat ≤ high then
      continuation (code * 64 + byte.toNat % 64) (fitted + 1) bounds rest
    else
      .error (fitted, .continuationByte)

/-- Decodes the bytes that follow position `start`.  `skip` bytes belong to a character already
read. -/
def decodeFrom (start skip : Nat) : Bytes → Except Utf8Error (List Char)
  | [] => .ok []
  | byte :: rest =>
    match skip with
    | skip + 1 => decodeFrom (start + 1) skip rest
    | 0 =>
      match sequenceShape? byte.toNat with
      | none => .error ⟨start, byte, 1, .startByte⟩
      | some (bounds, bits) =>
        match continuation bits 1 bounds rest with
        | .error (length, reason) => .error ⟨start, byte, length, reason⟩
        | .ok code => do
          let chars ← decodeFrom (start + 1) bounds.length rest
          return Char.ofNat code :: chars

/-- The text that well-formed bytes stand for. -/
def decode (bytes : Bytes) : Except Utf8Error String :=
  (decodeFrom 0 0 bytes).map String.ofList

/-- The bytes of a text. -/
def encode (text : String) : Bytes :=
  text.toList.flatMap String.utf8EncodeChar

end HackVm.Text
