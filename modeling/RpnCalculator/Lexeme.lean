import RpnCalculator.Operator
import RpnCalculator.Text.Blank

/-!
# Lexemes

A lexeme is a word of a line together with its kind. The kind is a matter of spelling alone, and the
kinds are tried in the order of the constructors of `Kind`: the first whose class holds the whole
word is its kind. The last class holds every word, so every word has a kind. `lexemes` is the list of
the lexemes of a line.
-/

namespace RpnCalculator

/-- The kind of a lexeme. -/
inductive Kind where
  /-- A numeral in base eight, which begins with the digit `0`. -/
  | octal
  /-- A numeral that begins with the digit `0` and is not octal; it is ignored. -/
  | malformed
  /-- A decimal numeral. -/
  | decimal
  /-- One of the six operators. -/
  | operator
  /-- The mark that turns comment mode on and off. -/
  | comment
  /-- Any other single character, a command or not. -/
  | character
  /-- Any other word, to be read as an expression. -/
  | expression
deriving DecidableEq, Repr

namespace Kind

/-- The name of a kind in listings. -/
def name : Kind → Text
  | octal => "octal".toList
  | malformed => "malformed".toList
  | decimal => "decimal".toList
  | operator => "operator".toList
  | comment => "comment".toList
  | character => "character".toList
  | expression => "infix".toList

/-- All kinds in the order in which the machine looks for them in a lexeme that has been read in
several ways. The comment mark comes first, because it is obeyed in comment mode too. -/
def byUrgency : List Kind :=
  [comment, octal, malformed, decimal, operator, character, expression]

end Kind

namespace Text

/-- A text without its minus sign, if it begins with one. -/
def dropMinus : Text → Text
  | '-' :: rest => rest
  | text => text

/-- Whether a character is one of the digits `0` to `7`. -/
def isOctalDigit (c : Char) : Bool := '0' ≤ c && c ≤ '7'

/-- An octal numeral is the digit `0` and one or more octal digits, after an optional minus sign. -/
def isOctal (word : Text) : Bool :=
  match dropMinus word with
  | '0' :: c :: cs => (c :: cs).all isOctalDigit
  | _ => false

/-- A malformed numeral is the digit `0` and two or more digits, after an optional minus sign. -/
def isMalformed (word : Text) : Bool :=
  match dropMinus word with
  | '0' :: c :: d :: cs => (c :: d :: cs).all Char.isDigit
  | _ => false

/-- A decimal numeral is one or more digits, after an optional minus sign. -/
def isDecimal (word : Text) : Bool :=
  match dropMinus word with
  | [] => false
  | c :: cs => (c :: cs).all Char.isDigit

/-- An operator is one of the six symbols. -/
def isOperator (word : Text) : Bool := (Operator.ofText? word).isSome

end Text

/-- The kind of a word. Without `comments` the comment mark is a character like any other. -/
def Kind.ofWord (comments : Bool) (word : Text) : Kind :=
  if Text.isOctal word then .octal
  else if Text.isMalformed word then .malformed
  else if Text.isDecimal word then .decimal
  else if Text.isOperator word then .operator
  else if comments && word == ['#'] then .comment
  else if word.length == 1 then .character
  else .expression

/-- A word with its kind. -/
structure Lexeme where
  kind : Kind
  text : Text
deriving DecidableEq, Repr

namespace Lexeme

/-- The lexeme that a word is. -/
def ofWord (comments : Bool) (word : Text) : Lexeme := ⟨Kind.ofWord comments word, word⟩

/-- The one of several readings that the machine acts upon: the most urgent, and the first of that
kind. -/
def foremost? (readings : List Lexeme) : Option Lexeme :=
  Kind.byUrgency.findSome? fun kind => readings.find? (·.kind == kind)

@[simp] theorem kind_ofWord (comments : Bool) (word : Text) :
    (ofWord comments word).kind = Kind.ofWord comments word := rfl

@[simp] theorem text_ofWord (comments : Bool) (word : Text) :
    (ofWord comments word).text = word := rfl

end Lexeme

/-- The lexemes of a line, in order. -/
def lexemes (comments : Bool) (line : Text) : List Lexeme :=
  (Text.words line).map (Lexeme.ofWord comments)

@[simp] theorem lexemes_nil (comments : Bool) : lexemes comments [] = [] := rfl

/-- The lexemes keep every word whole. -/
theorem map_text_lexemes (comments : Bool) (line : Text) :
    (lexemes comments line).map Lexeme.text = Text.words line := by
  simp [lexemes, Function.comp_def]

theorem mem_lexemes {comments : Bool} {line : Text} {x : Lexeme} :
    x ∈ lexemes comments line ↔
      x.text ∈ Text.words line ∧ x.kind = Kind.ofWord comments x.text := by
  constructor
  · intro h
    obtain ⟨word, hword, rfl⟩ := List.mem_map.1 h
    exact ⟨hword, rfl⟩
  · rintro ⟨hword, hkind⟩
    exact List.mem_map.2 ⟨x.text, hword, by cases x; simp_all [Lexeme.ofWord]⟩

example : lexemes true "08 -010 1+2 #".toList =
    [⟨.decimal, "08".toList⟩, ⟨.octal, "-010".toList⟩, ⟨.expression, "1+2".toList⟩,
      ⟨.comment, ['#']⟩] := by decide

end RpnCalculator
