import RpnCalculator.Text.Basic

/-!
# Input

Standard input is read as ASCII: a byte that is no ASCII code becomes the replacement character. It
depends on the stream what ends a line of it (`Input.LineEnds`): a line feed alone, which is how a
POSIX system opens it, or a line feed, a carriage return, and the two in the other order. What follows
the last end of line is a line only if it is not empty.
-/

namespace RpnCalculator

namespace Input

/-- The character that stands for a byte that is no ASCII code. -/
def replacement : Char := '\ufffd'

/-- The character of a byte. -/
def decodeByte (byte : UInt8) : Char :=
  if byte < 0x80 then Char.ofNat byte.toNat else replacement

/-- The text of the bytes. -/
def decode (bytes : List UInt8) : Text := bytes.map decodeByte

/-- The lines of a character that ends no line followed by text with the given lines. -/
def consLine (c : Char) : List Text → List Text
  | [] => [[c]]
  | line :: rest => (c :: line) :: rest

/-- The lines of a text that end at a carriage return, at a line feed, or at the two in this order,
without their ends. -/
def lines : Text → List Text
  | [] => []
  | '\r' :: '\n' :: cs => [] :: lines cs
  | c :: cs => if c = '\r' ∨ c = '\n' then [] :: lines cs else consLine c (lines cs)

/-- The lines of a text that end at a line feed, without it. -/
def feedLines : Text → List Text
  | [] => []
  | c :: cs => if c = '\n' then [] :: feedLines cs else consLine c (feedLines cs)

/-- What ends a line of a stream. -/
inductive LineEnds where
  | feed
  | any
deriving DecidableEq, Repr

/-- The lines of a text from a stream. -/
def linesBy : LineEnds → Text → List Text
  | .feed => feedLines
  | .any => lines

/-- Whether a character is one of the two that end a line. -/
def isLineEnd (c : Char) : Bool := c == '\r' || c == '\n'

/-- A text without the carriage returns and line feeds at its end. -/
def stripEnd (text : Text) : Text := (text.reverse.dropWhile isLineEnd).reverse

@[simp] theorem lines_nil : lines [] = [] := rfl

end Input

end RpnCalculator
