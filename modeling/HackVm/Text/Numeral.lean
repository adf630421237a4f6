import HackVm.Text.Blank
import HackVm.Text.Digit
import HackVm.Text.Quoted

/-!
# Integers as text

Integers are unbounded, but a decimal text may have at most `maxDigits` digits, when it is read
and when it is written.  Hexadecimal text has no such limit.

`readInt` accepts blanks around the numeral, one sign, in base sixteen an optional `0x`, and
single underscores between digits.  Digits of every script count.  The four information
separators are blanks between words but not around a numeral.
-/

namespace HackVm.Text

/-- The largest number of digits of a decimal text. -/
def maxDigits : Nat := 4300

/-- Why a text and an integer could not be turned into each other. -/
inductive NumberError where
  /-- The text is no numeral of that base. -/
  | notNumeral (base : Nat) (text : String)
  /-- The decimal text has `count` digits, which is over the limit. -/
  | tooManyDigits (count : Nat)
  /-- The integer's decimal text would be over the limit. -/
  | tooLong
  deriving DecidableEq, Repr

/-- The decimal digits of a natural number. -/
def naturalDigits (n : Nat) : List Char :=
  Nat.toDigits 10 n

/-- A natural number in decimal. -/
def natural (n : Nat) : String :=
  String.ofList (naturalDigits n)

/-- An integer in decimal, with a minus sign when it is negative. -/
def decimal (n : Int) : String :=
  if n < 0 then "-" ++ natural n.natAbs else natural n.natAbs

/-- The decimal text of `n` is within the limit. -/
def isWritable (n : Int) : Bool :=
  n.natAbs < Nat.pow 10 maxDigits

/-- The decimal text of an integer, if it is within the limit. -/
def writeInt (n : Int) : Except NumberError String :=
  if isWritable n then .ok (decimal n) else .error .tooLong

/-- How much of a text that is no numeral is shown in a message, quotes and escapes counted. -/
def shownLength : Nat := 200

/-- The wording of the digit limit, around what is said about a value. -/
def limitMessage (value : String) : String :=
  "Exceeds the limit (" ++ natural maxDigits ++ " digits) for integer string conversion" ++ value ++
    "; use sys.set_int_max_str_digits() to increase the limit"

/-- The wording of a number error. -/
def NumberError.message : NumberError → String
  | .notNumeral base text =>
    "invalid literal for int() with base " ++ natural base ++ ": " ++
      String.ofList ((quoted text).toList.take shownLength)
  | .tooManyDigits count => limitMessage (": value has " ++ natural count ++ " digits")
  | .tooLong => limitMessage ""

/-! ## Reading -/

/-- Blanks that may surround a numeral. -/
def isNumeralBlank (c : Char) : Bool :=
  isBlank c && !(0x1C ≤ c.toNat && c.toNat ≤ 0x1F)

/-- The value of a character as a digit in the given base: a decimal digit of any script, or one
of the sixteen ASCII hexadecimal digits. -/
def digitIn? (base : Nat) (c : Char) : Option Nat :=
  let letter? :=
    if 'a' ≤ c && c ≤ 'f' then some (c.toNat - 'a'.toNat + 10)
    else if 'A' ≤ c && c ≤ 'F' then some (c.toNat - 'A'.toNat + 10)
    else none
  ((digitValue? c).or letter?).filter (· < base)

/-- Characters of the digit part of a numeral: digits and the underscore between them. -/
def isNumeralPart (base : Nat) (c : Char) : Bool :=
  c == '_' || (digitIn? base c).isSome

/-- Underscores stand only between two digits.  `due` says that a digit has to come next. -/
def isGrouped (due : Bool) : List Char → Bool
  | [] => !due
  | c :: rest => if c == '_' then !due && isGrouped true rest else isGrouped false rest

/-- The digit values of the digit part of a numeral. -/
def digitsIn (base : Nat) (text : List Char) : List Nat :=
  text.filterMap (digitIn? base)

/-- The number that a list of digits stands for, highest digit first. -/
def valueOf (base : Nat) (digits : List Nat) : Nat :=
  digits.foldl (fun value digit => value * base + digit) 0

/-- Splits a sign off: whether it is a minus sign, and the rest. -/
def takeSign : List Char → Bool × List Char
  | '-' :: rest => (true, rest)
  | '+' :: rest => (false, rest)
  | text => (false, text)

/-- Takes away the mark of base sixteen, and one underscore after it. -/
def dropHexMark : List Char → List Char
  | zero :: mark :: rest =>
    if digitValue? zero == some 0 && (mark == 'x' || mark == 'X') then
      match rest with
      | '_' :: digits => digits
      | digits => digits
    else zero :: mark :: rest
  | text => text

/-- The number written by an unsigned numeral, or its number of digits when that is over the
limit.  `none` is no numeral. -/
def readNatural? (base : Nat) (text : List Char) : Option (Except NumberError Nat) :=
  let part := text.takeWhile (isNumeralPart base)
  let digits := digitsIn base part
  if !isGrouped true part then none
  else if base == 10 && maxDigits < digits.length then some (.error (.tooManyDigits digits.length))
  else if part.length < text.length then none
  else some (.ok (valueOf base digits))

/-- Reads an integer in base ten or sixteen. -/
def readInt (base : Nat) (text : String) : Except NumberError Int :=
  let signed := takeSign (trimWhere isNumeralBlank text.toList)
  let body := if base == 16 then dropHexMark signed.2 else signed.2
  match readNatural? base body with
  | none => .error (.notNumeral base text)
  | some (.error e) => .error e
  | some (.ok n) => .ok (if signed.1 then -(n : Int) else n)

/-- Reads the integer notations of the command line: `0x` or `$` introduce a hexadecimal number,
anything else is decimal. -/
def readNotation (text : String) : Except NumberError Int :=
  let body := trim text.toList
  match body with
  | '0' :: 'x' :: _ => readInt 16 (String.ofList body)
  | '0' :: 'X' :: _ => readInt 16 (String.ofList body)
  | '$' :: rest => readInt 16 (String.ofList rest)
  | _ => readInt 10 (String.ofList body)

end HackVm.Text
