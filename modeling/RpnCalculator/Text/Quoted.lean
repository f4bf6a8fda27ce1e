import RpnCalculator.Text.Basic
import RpnCalculator.Text.Printable

/-!
# Quoted texts

The quoted form of a text stands between two quotation marks, in one line, with every character
that could not be seen written as an escape. The mark is the apostrophe, unless the text has an
apostrophe and no double quotation mark; then it is the double quotation mark.
-/

namespace RpnCalculator

namespace Text

/-- The hexadecimal form of a number with at least `width` digits. -/
def hexadecimal (width n : Nat) : Text :=
  (Nat.toDigits 16 n).leftpad width '0'

/-- The escape of an unprintable character: the shortest of the three forms that has room for its
code point. -/
def escapeCode (n : Nat) : Text :=
  if n < 0x100 then '\\' :: 'x' :: hexadecimal 2 n
  else if n < 0x10000 then '\\' :: 'u' :: hexadecimal 4 n
  else '\\' :: 'U' :: hexadecimal 8 n

/-- One character inside the quotation mark `mark`. -/
def escape (mark c : Char) : Text :=
  if c = mark ∨ c = '\\' then ['\\', c]
  else if c = '\t' then ['\\', 't']
  else if c = '\n' then ['\\', 'n']
  else if c = '\r' then ['\\', 'r']
  else if isPrintable c then [c]
  else escapeCode c.toNat

/-- The quotation mark that a text is quoted with. -/
def quotationMark (text : Text) : Char :=
  if '\'' ∈ text ∧ '"' ∉ text then '"' else '\''

/-- The quoted form of a text. -/
def quoted (text : Text) : Text :=
  quotationMark text :: text.flatMap (escape (quotationMark text)) ++ [quotationMark text]

example : quoted "it's".toList = "\"it's\"".toList := by decide +kernel

example : quoted ['a', '\t', '\x7f'] = "'a\\t\\x7f'".toList := by decide +kernel

end Text

end RpnCalculator
