import RpnCalculator.Expression.Piece
import RpnCalculator.Operator

/-!
# Conversion of expressions

An expression is converted to a list of items in which every operator stands after its operands. The
pieces are read from left to right; operators wait in `Pending` until they are due. Two rules set
this conversion apart from the usual one.

* An operator that binds more loosely than the one waiting on top releases *all* waiting operators,
  not only those that bind more tightly.
* A minus in the place of a sign waits like any operator and raises the flag `negate`. The numeral
  that follows takes the operator on top as its sign, and it waits no longer. A minus that is about
  to be taken in this way releases nothing.

The character `d`, which shows the stack, releases all waiting operators too.
-/

namespace RpnCalculator

/-- One item of a converted expression. -/
inductive Item where
  /-- A numeral, with the operator that it has taken as its sign. -/
  | numeral (sign : Option Operator) (digits : Text)
  | operator (o : Operator)
  /-- A character that is neither a digit nor an operator. -/
  | symbol (c : Char)
deriving DecidableEq, Repr

namespace Item

/-- The characters of an item. -/
def text : Item → Text
  | numeral (some o) digits => o.symbol :: digits
  | numeral none digits => digits
  | operator o => [o.symbol]
  | symbol c => [c]

/-- The text of a list of items: each is followed by one space. -/
def textOf (items : List Item) : Text := items.flatMap fun item => item.text ++ [' ']

@[simp] theorem textOf_nil : textOf [] = [] := rfl

@[simp] theorem textOf_cons (item : Item) (items : List Item) :
    textOf (item :: items) = item.text ++ ' ' :: textOf items := by
  simp [textOf]

@[simp] theorem textOf_append (items later : List Item) :
    textOf (items ++ later) = textOf items ++ textOf later := by
  simp [textOf]

end Item

/-- The operators that wait, and whether the next numeral takes one of them as its sign. -/
structure Pending where
  /-- The operators that wait, the one on top first. -/
  operators : List Operator
  /-- Whether the next numeral takes the operator on top as its sign. -/
  negate : Bool
deriving DecidableEq, Repr

namespace Pending

/-- No operator waits and no sign is due. -/
def empty : Pending := ⟨[], false⟩

/-- The command that shows the stack. -/
def displayCommand : Char := 'd'

/-- All waiting operators, from the top down. -/
def released (p : Pending) : List Item := p.operators.map .operator

/-- The state in which no operator waits any more. -/
def release (p : Pending) : Pending := { p with operators := [] }

/-- The flag after an operator. A minus that does not follow a numeral turns it over, any other
operator clears it. -/
def negateAfter (p : Pending) (o : Operator) (previous : Option Piece) : Bool :=
  o == .sub && ! previous.any Piece.isNumeral && ! p.negate

/-- Whether an operator that comes in makes the waiting ones due. -/
def isDue (p : Pending) (o : Operator) : Bool :=
  p.operators.head?.any fun top => o.precedence < top.precedence

/-- Reads an operator. -/
def readOperator (p : Pending) (o : Operator) (previous following : Option Piece) :
    List Item × Pending :=
  let negate := p.negateAfter o previous
  if (negate && following.any Piece.isNumeral) || ! p.isDue o then
    ([], ⟨o :: p.operators, negate⟩)
  else (p.released, ⟨[o], negate⟩)

/-- Reads a numeral. -/
def readNumeral (p : Pending) (digits : Text) : List Item × Pending :=
  match p.negate, p.operators with
  | true, o :: rest => ([.numeral (some o) digits], ⟨rest, false⟩)
  | _, _ => ([.numeral none digits], p)

/-- Reads a character that is neither a digit nor an operator. -/
def readSymbol (p : Pending) (c : Char) : List Item × Pending :=
  if c = displayCommand then (p.released ++ [.symbol c], p.release) else ([.symbol c], p)

/-- Reads a piece: the items that it makes due, and what waits after it. The pieces before and after
it tell the two uses of the minus apart. -/
def read (p : Pending) (previous : Option Piece) (piece : Piece) (following : Option Piece) :
    List Item × Pending :=
  match piece with
  | .numeral digits => p.readNumeral digits
  | .symbol c =>
    match Operator.ofSymbol? c with
    | some o => p.readOperator o previous following
    | none => p.readSymbol c

/-- Reads all pieces that follow the piece `previous`. -/
def readAll (p : Pending) (previous : Option Piece) : List Piece → List Item × Pending
  | [] => ([], p)
  | piece :: rest =>
    let now := p.read previous piece rest.head?
    let later := now.2.readAll (some piece) rest
    (now.1 ++ later.1, later.2)

@[simp] theorem readAll_nil (p : Pending) (previous : Option Piece) :
    p.readAll previous [] = ([], p) := rfl

theorem readAll_cons (p : Pending) (previous : Option Piece) (piece : Piece) (rest : List Piece) :
    p.readAll previous (piece :: rest) =
      ((p.read previous piece rest.head?).1 ++
          ((p.read previous piece rest.head?).2.readAll (some piece) rest).1,
        ((p.read previous piece rest.head?).2.readAll (some piece) rest).2) := rfl

@[simp] theorem operators_release (p : Pending) : p.release.operators = [] := rfl

@[simp] theorem negate_release (p : Pending) : p.release.negate = p.negate := rfl

end Pending

/-- A converter for several expressions one after another. It keeps the items of all of them, and
the flag of a sign that no numeral has taken. -/
structure Converter where
  items : List Item
  pending : Pending
deriving DecidableEq, Repr

namespace Converter

/-- A converter that has seen no expression. -/
def empty : Converter := ⟨[], .empty⟩

/-- Converts one more expression. At its end all waiting operators are due. -/
def add (c : Converter) (expression : Text) : Converter :=
  let read := c.pending.readAll none (pieces expression)
  ⟨c.items ++ (read.1 ++ read.2.released), read.2.release⟩

/-- The text of all items so far. -/
def text (c : Converter) : Text := Item.textOf c.items

@[simp] theorem operators_pending_add (c : Converter) (expression : Text) :
    (c.add expression).pending.operators = [] := rfl

theorem items_add (c : Converter) (expression : Text) :
    (c.add expression).items =
      c.items ++ ((c.pending.readAll none (pieces expression)).1 ++
        (c.pending.readAll none (pieces expression)).2.released) := rfl

end Converter

/-- The items of an expression on its own. -/
def itemsOf (expression : Text) : List Item := (Converter.empty.add expression).items

/-- The converted form of an expression, each item followed by one space. -/
def convert (expression : Text) : Text := Item.textOf (itemsOf expression)

example : convert "1+2*3".toList = "1 2 3 * + ".toList := by decide

example : convert "4*5+6".toList = "4 5 * 6 + ".toList := by decide

example : convert "2--3".toList = "2 -3 - ".toList := by decide

end RpnCalculator
