import RpnCalculator.Expression.Conversion
import RpnCalculator.Machine.Step

/-!
# What the machine does with a line

`Machine.process` acts upon the lexemes of a line in order. A complaint is printed and ends its own
lexeme only; any other failure ends the line.

An expression is converted and the converted form is run as a line in turn, where a comment mark is
an ordinary character. The number of conversions inside one another is bounded by an argument,
`depth`. One level is enough, since a converted expression holds no expression; a run that needed
more would end in the failure `nesting`.
-/

namespace RpnCalculator

namespace Machine

/-- Acts upon lexemes in order, where `evaluate` says what an expression does. -/
def runWith (evaluate : Machine → Text → Run) (m : Machine) : List Lexeme → Run
  | [] => .idle m
  | x :: xs => (feedWith evaluate m x).contain.andThen fun next => runWith evaluate next xs

/-- What is printed about a conversion. -/
def conversionEvents (m : Machine) (expression : Text) : List Event :=
  if m.verbose then [.conversion expression (convert expression)] else []

/-- Converts an expression and runs the converted form, with up to `depth` conversions inside one
another. -/
def evaluate : Nat → Machine → Text → Run
  | 0, m, _ => .failing m .nesting
  | depth + 1, m, expression =>
    (Run.printing m (m.conversionEvents expression)).andThen fun next =>
      runWith (evaluate depth) next (lexemes false (convert expression))

/-- The number of conversions inside one another that the machine admits. -/
def nestingLimit : Nat := 1

/-- Acts upon one lexeme. -/
def feed (m : Machine) (x : Lexeme) : Run := feedWith (evaluate nestingLimit) m x

/-- Acts upon lexemes in order. -/
def run (m : Machine) (xs : List Lexeme) : Run := runWith (evaluate nestingLimit) m xs

/-- Acts upon a line. Without `comments` the comment mark is an ordinary character. -/
def process (m : Machine) (line : Text) (comments : Bool) : Run := m.run (lexemes comments line)

variable {evaluate : Machine → Text → Run}

@[simp] theorem runWith_nil (m : Machine) : runWith evaluate m [] = .idle m := rfl

theorem runWith_cons (m : Machine) (x : Lexeme) (xs : List Lexeme) :
    runWith evaluate m (x :: xs) =
      (feedWith evaluate m x).contain.andThen fun next => runWith evaluate next xs := rfl

theorem runWith_singleton (m : Machine) (x : Lexeme) :
    runWith evaluate m [x] = (feedWith evaluate m x).contain :=
  (feedWith evaluate m x).contain.andThen_idle

/-- Running two lists of lexemes one after the other is running their concatenation. -/
theorem runWith_append (m : Machine) (xs ys : List Lexeme) :
    runWith evaluate m (xs ++ ys) =
      (runWith evaluate m xs).andThen fun next => runWith evaluate next ys := by
  induction xs generalizing m with
  | nil => simp
  | cons x xs ih =>
      rw [List.cons_append, runWith_cons, runWith_cons, Run.andThen_assoc]
      congr 1
      funext next
      exact ih next

theorem run_append (m : Machine) (xs ys : List Lexeme) :
    m.run (xs ++ ys) = (m.run xs).andThen fun next => next.run ys :=
  runWith_append m xs ys

@[simp] theorem process_nil (m : Machine) (comments : Bool) :
    m.process [] comments = .idle m := rfl

end Machine

end RpnCalculator
