import HackVm.Text.Printable

/-!
# Quoted text

Messages show names and lines in quotes.  A text is put between apostrophes, or between double
quotes when it has an apostrophe and no double quote.  Inside, the backslash and the chosen quote
take a backslash, line feed, carriage return and tab have their letter escapes, and every other
character that is not printable is written by its code point in two, four or eight hexadecimal
digits.
-/

namespace HackVm.Text

/-- The lower-case hexadecimal digits of `code`, filled up with zeros to `width`. -/
def hexDigits (width code : Nat) : List Char :=
  let digits := Nat.toDigits 16 code
  List.replicate (width - digits.length) '0' ++ digits

/-- The numeric escape of a code point. -/
def codeEscape (code : Nat) : List Char :=
  if code < 0x100 then '\\' :: 'x' :: hexDigits 2 code
  else if code < 0x10000 then '\\' :: 'u' :: hexDigits 4 code
  else '\\' :: 'U' :: hexDigits 8 code

/-- One character inside quotes of the kind `quote`. -/
def escapeChar (quote c : Char) : List Char :=
  if c == quote || c == '\\' then ['\\', c]
  else if c == '\n' then ['\\', 'n']
  else if c == '\r' then ['\\', 'r']
  else if c == '\t' then ['\\', 't']
  else if isPrintable c then [c]
  else codeEscape c.toNat

/-- The quote that encloses a text: the apostrophe, unless only it occurs in the text. -/
def quoteFor (text : List Char) : Char :=
  if text.contains '\'' && !text.contains '"' then '"' else '\''

/-- A text in quotes. -/
def quoted (text : String) : String :=
  let quote := quoteFor text.toList
  String.ofList (quote :: text.toList.flatMap (escapeChar quote) ++ [quote])

end HackVm.Text
