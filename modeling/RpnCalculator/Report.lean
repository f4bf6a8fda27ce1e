import RpnCalculator.Text.Numeral
import RpnCalculator.Word

/-!
# What the machine reports

A `Complaint` is an error of the user: it is printed and concerns one lexeme only. A `Failure` is
whatever ends a lexeme before its time; besides the complaints these are the arithmetic fault, which
ends the whole run, and the errors that only a lexeme of a wrong kind can cause. An `Event` is
something that the machine prints, and its wording is fixed here: `Event.out` is its text on standard
output and `Event.err` its text on standard error.
-/

namespace RpnCalculator

/-- An error of the user. -/
inductive Complaint where
  /-- A division by zero, or a remainder of zero. -/
  | divisionByZero
  | negativePower
  | unrecognised (text : Text)
deriving DecidableEq, Repr

/-- The wording of a complaint. -/
def Complaint.message : Complaint → Text
  | .divisionByZero => "Divide by 0.".toList
  | .negativePower => "Negative power.".toList
  | .unrecognised text => "Unrecognised operator or operand \"".toList ++ text ++ "\".".toList

/-- What ends a lexeme before its time. -/
inductive Failure where
  | complaint (cause : Complaint)
  /-- The remainder of a division by zero, which ends the run. -/
  | arithmeticFault
  /-- A numeral that has no value in its base. -/
  | invalidNumeral (base : Nat) (text : Text)
  | unknownOperator (text : Text)
  /-- An expression inside more converted expressions than may be nested. -/
  | nesting
deriving DecidableEq, Repr

/-- The exit status of a program that an arithmetic fault has ended. -/
def arithmeticFaultStatus : Nat := 136

/-- Something that the machine prints. -/
inductive Event where
  | top (value : Int)
  /-- All values of the stack, the lowest first. -/
  | listing (values : List Int)
  /-- The top was asked for and there is none. -/
  | emptyTop
  /-- The values were asked for and there are none. -/
  | emptyListing
  | underflow
  | overflow
  | complaint (cause : Complaint)
  | conversion (source result : Text)
deriving DecidableEq, Repr

namespace Event

/-- A text and the end of its line. -/
def line (text : Text) : Text := text ++ ['\n']

/-- What an event prints on standard output. -/
def out : Event → Text
  | top value => line (Text.decimal value)
  | listing values => values.flatMap fun value => line (Text.decimal value)
  | _ => []

/-- What an event prints on standard error. -/
def err : Event → Text
  | emptyTop => line "Stack empty.".toList
  | emptyListing => line (Text.decimal Word.lowest)
  | underflow => line "Stack underflow.".toList
  | overflow => line "Stack overflow.".toList
  | complaint cause => line cause.message
  | conversion source result => line (source ++ " -> ".toList ++ result)
  | top _ => []
  | listing _ => []

/-- What a list of events prints on standard output. -/
def outOf (events : List Event) : Text := events.flatMap out

/-- What a list of events prints on standard error. -/
def errOf (events : List Event) : Text := events.flatMap err

@[simp] theorem outOf_nil : outOf [] = [] := rfl

@[simp] theorem outOf_cons (e : Event) (events : List Event) :
    outOf (e :: events) = e.out ++ outOf events := rfl

@[simp] theorem outOf_append (events later : List Event) :
    outOf (events ++ later) = outOf events ++ outOf later := by
  simp [outOf]

@[simp] theorem errOf_nil : errOf [] = [] := rfl

@[simp] theorem errOf_cons (e : Event) (events : List Event) :
    errOf (e :: events) = e.err ++ errOf events := rfl

@[simp] theorem errOf_append (events later : List Event) :
    errOf (events ++ later) = errOf events ++ errOf later := by
  simp [errOf]

end Event

end RpnCalculator
