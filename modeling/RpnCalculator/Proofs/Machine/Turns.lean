import RpnCalculator.Proofs.Machine.Flattening
import RpnCalculator.Proofs.Machine.Reachable

/-!
# Turns

What a machine does in a run can be told turn by turn: a turn is a lexeme that the machine comes to,
together with the machine that comes to it. `Machine.turns` lists the turns of a loop. The lexemes
after one that ends the loop are not come to, so they have no turn.

A host may give a machine line after line, and need not stop at one that fails. `Machine.throughout`
collects what happens in such lines; it is given what happens in one.
-/

namespace RpnCalculator

/-- A lexeme that a machine comes to, and the machine as it is then. -/
structure Turn where
  machine : Machine
  lexeme : Lexeme

namespace Machine

/-- The turns of a loop over lexemes, in order. -/
def turns (step : Machine → Lexeme → Run) (m : Machine) : List Lexeme → List Turn
  | [] => []
  | x :: xs =>
    let r := (step m x).contain
    ⟨m, x⟩ :: if r.failure.isSome then [] else turns step r.machine xs

/-- What happens in lines that are run in order, where `happens` says what happens in one. A line that
fails does not keep the next one from being run. -/
def throughout {α : Type} (happens : Machine → Text → List α) (comments : Bool) (m : Machine) :
    List Text → List α
  | [] => []
  | line :: rest =>
    happens m line ++ throughout happens comments (m.process line comments).machine rest

/-- The machine after lines that are run in order, those that failed included. -/
def afterLines (comments : Bool) (m : Machine) (lines : List Text) : Machine :=
  m.after (lines.map fun line => .process line comments)

/-- The runs of lines, one for each. -/
def runs (comments : Bool) : Machine → List Text → List Run :=
  throughout (fun m line => [m.process line comments]) comments

/-- The turns of lines, line by line, where an expression has one turn. -/
def lineTurns (comments : Bool) : Machine → List Text → List (List Turn) :=
  throughout (fun m line => [m.turns feed (lexemes comments line)]) comments

/-- The turns of lines, where an expression is come to in each lexeme of its converted form. -/
def flatTurns (comments : Bool) : Machine → List Text → List Turn :=
  throughout (fun m line => m.turns act (flatLexemes comments line)) comments

variable {step : Machine → Lexeme → Run} {m : Machine}

@[simp] theorem turns_nil (m : Machine) : m.turns step [] = [] := rfl

theorem turns_cons_of_failure {x : Lexeme} {failure : Failure}
    (h : (step m x).contain.failure = some failure) (xs : List Lexeme) :
    m.turns step (x :: xs) = [⟨m, x⟩] := by
  simp [turns, h]

theorem turns_cons_of_not_failure {x : Lexeme} (h : (step m x).contain.failure = none)
    (xs : List Lexeme) :
    m.turns step (x :: xs) = ⟨m, x⟩ :: (step m x).machine.turns step xs := by
  simp [turns, h]

/-- What a loop prints is printed in its turns. -/
theorem events_loop (m : Machine) (xs : List Lexeme) :
    (loop step m [] xs).events =
      (m.turns step xs).flatMap fun t => (step t.machine t.lexeme).contain.events := by
  induction xs generalizing m with
  | nil => rfl
  | cons x xs ih =>
      rw [loop_cons]
      cases hfailure : (step m x).contain.failure with
      | some failure =>
          rw [turns_cons_of_failure hfailure, Run.andThen_of_failure hfailure]
          exact (List.append_nil _).symm
      | none =>
          rw [turns_cons_of_not_failure hfailure, Run.andThen_of_not_failure hfailure,
            List.flatMap_cons, ← ih, Run.machine_contain]

theorem throughout_cons {α : Type} (happens : Machine → Text → List α) (comments : Bool)
    (m : Machine) (line : Text) (rest : List Text) :
    throughout happens comments m (line :: rest) =
      happens m line ++ throughout happens comments (m.process line comments).machine rest := rfl

theorem afterLines_cons (comments : Bool) (m : Machine) (line : Text) (rest : List Text) :
    m.afterLines comments (line :: rest) =
      (m.process line comments).machine.afterLines comments rest := rfl

end Machine

end RpnCalculator
