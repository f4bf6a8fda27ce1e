import RpnCalculator.Lexeme
import RpnCalculator.Machine.Basic
import RpnCalculator.Operator.Arithmetic

/-!
# What the machine does with one lexeme

Each kind of lexeme has an operation of its own here; `Machine.feedWith` chooses among them. The
evaluation of a converted expression is a parameter of it, since an expression is run as a line.

An operator takes both operands off the stack before it computes. After a complaint they are put
back on it, each with the check for room that every value goes through; after any other failure they
stay off.
-/

namespace RpnCalculator

namespace Machine

/-- Offers a number to the stack. -/
def push (m : Machine) (v : Number) : Run :=
  .printing { m with stack := m.stack.push v } m.stack.roomEvents

/-- The machine without the value on top of its stack. -/
def pop (m : Machine) : Machine := { m with stack := m.stack.pop }

/-- The machine with its random sequence started again from a seed. -/
def reseed (m : Machine) (seed : Int) : Machine := { m with random := m.random.reseed seed }

/-- The word of a numeral. One out of range is worth the end of the range on the side of its sign,
which is what its first character says. -/
def literal? (base : Nat) (text : Text) : Option Int :=
  (Text.read? base text).map fun n =>
    if Word.Fits n then n
    else if text.head? = some '-' then Word.lowest else Word.highest

/-- Puts the value of a numeral on the stack. -/
def pushLiteral (m : Machine) (base : Nat) (text : Text) : Run :=
  match literal? base text with
  | some n => m.push (.integer n)
  | none => .failing m (.invalidNumeral base text)

/-- Puts the two operands of an operator back. -/
def putBack (m : Machine) (left right : Int) : Run :=
  (m.push (.integer left)).andThen fun next => next.push (.integer right)

/-- Applies an operator to the two values on top. -/
def applyOperator (m : Machine) (text : Text) : Run :=
  if m.stack.isShort then .printing m m.stack.operandEvents
  else
    let right := m.stack.top
    let left := m.stack.pop.top
    let rest := m.pop.pop
    match Operator.ofText? text with
    | none => .failing rest (.unknownOperator text)
    | some o =>
      match o.apply left right with
      | .ok result => rest.push (.real result)
      | .error (.complaint cause) =>
        (rest.putBack left right).andThen fun next => .failing next (.complaint cause)
      | .error failure => .failing rest failure

/-- Draws a number and puts it on the stack. With no room on the stack none is drawn. -/
def pushRandom (m : Machine) : Run :=
  if m.stack.isFull then .printing m m.stack.roomEvents
  else { m with random := m.random.advance }.push (.integer m.random.next)

/-- Obeys a command: `d` shows the stack, `=` its top, and `r` draws a random number. -/
def obey (m : Machine) (text : Text) : Run :=
  match text with
  | ['d'] => .printing m [m.stack.listingEvent]
  | ['r'] => m.pushRandom
  | ['='] => .printing m [m.stack.topEvent]
  | _ => .failing m (.complaint (.unrecognised text))

/-- Turns comment mode on or off. -/
def toggleComment (m : Machine) : Machine := { m with comment := ! m.comment }

/-- Acts upon a lexeme, where `evaluate` says what an expression does. In comment mode only the
comment mark is acted upon. -/
def feedWith (evaluate : Machine → Text → Run) (m : Machine) (x : Lexeme) : Run :=
  if x.kind = .comment then .idle m.toggleComment
  else if m.comment then .idle m
  else
    match x.kind with
    | .octal => m.pushLiteral 8 x.text
    | .decimal => m.pushLiteral 10 x.text
    | .operator => m.applyOperator x.text
    | .character => m.obey x.text
    | .expression => evaluate m x.text
    | .malformed => .idle m
    | .comment => .idle m

variable {evaluate : Machine → Text → Run} {m : Machine} {text : Text}

theorem feedWith_of_comment {x : Lexeme} (hx : x.kind ≠ .comment) (hm : m.comment) :
    feedWith evaluate m x = .idle m := by
  simp [feedWith, hx, hm]

theorem feedWith_octal (h : m.comment = false) :
    feedWith evaluate m ⟨.octal, text⟩ = m.pushLiteral 8 text := by
  simp [feedWith, h]

theorem feedWith_malformed (h : m.comment = false) :
    feedWith evaluate m ⟨.malformed, text⟩ = .idle m := by
  simp [feedWith, h]

theorem feedWith_decimal (h : m.comment = false) :
    feedWith evaluate m ⟨.decimal, text⟩ = m.pushLiteral 10 text := by
  simp [feedWith, h]

theorem feedWith_operator (h : m.comment = false) :
    feedWith evaluate m ⟨.operator, text⟩ = m.applyOperator text := by
  simp [feedWith, h]

theorem feedWith_character (h : m.comment = false) :
    feedWith evaluate m ⟨.character, text⟩ = m.obey text := by
  simp [feedWith, h]

theorem feedWith_expression (h : m.comment = false) :
    feedWith evaluate m ⟨.expression, text⟩ = evaluate m text := by
  simp [feedWith, h]

/-- The two ways of bringing a numeral into range agree: by its value and by its first character.
A numeral worth zero may have either first character. -/
theorem literal?_eq_clamp {base : Nat} {n : Int} (h : Text.read? base text = some n)
    (hsign : n ≠ 0 → (n < 0 ↔ text.head? = some '-')) :
    literal? base text = some (Word.clamp n) := by
  simp only [literal?, h, Option.map_some, Option.some.injEq]
  by_cases hfits : Word.Fits n
  · rw [if_pos hfits, Word.clamp_of_fits hfits]
  · rw [if_neg hfits]
    simp only [Word.fits_iff] at hfits
    have hiff := hsign (by omega)
    by_cases hneg : n < 0
    · rw [if_pos (hiff.1 hneg), Word.clamp_of_le_lowest]
      simp only [Word.lowest]
      omega
    · rw [if_neg (mt hiff.2 hneg), Word.clamp_of_highest_le]
      simp only [Word.highest]
      omega

end Machine

end RpnCalculator
