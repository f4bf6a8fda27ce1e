import RpnCalculator.CommandLine.Input
import RpnCalculator.Machine.Line
import RpnCalculator.Text.Quoted

/-!
# Sessions

A session reads lines one at a time, either to run them on one machine or to list their lexemes. A
line is stripped of its end first, and one that is too long ends the session. `Session.readAll` is
what a session makes of a list of lines.
-/

namespace RpnCalculator

/-- What is printed on standard output and on standard error. -/
structure Printed where
  out : Text := []
  err : Text := []
deriving DecidableEq, Repr

namespace Printed

/-- Two texts on each stream, one after the other. -/
def append (p q : Printed) : Printed := ⟨p.out ++ q.out, p.err ++ q.err⟩

instance : Append Printed := ⟨append⟩

end Printed

/-- What a session does with its lines: it runs them on a machine, or it lists their lexemes. -/
inductive Session where
  | execute (m : Machine)
  | dump
deriving DecidableEq, Repr

/-- What becomes of a session with a line: what is printed, and the session that goes on or the
status with which it has ended. -/
structure Reaction where
  printed : Printed
  next : Except Nat Session

namespace Session

/-- The greatest length of a line, in characters. -/
def lineLimit : Nat := 128

/-- The exit status after a line that is too long. -/
def lineTooLongStatus : Nat := 139

/-- The exit status after a failure of the machine. -/
def statusOf : Failure → Nat
  | .arithmeticFault => arithmeticFaultStatus
  | _ => 1

/-- The line that lists a lexeme: its kind, its quoted text, and for an expression the quoted text
that it is converted to, with tabs between. -/
def dumpLine (x : Lexeme) : Text :=
  let converted := if x.kind = .expression then '\t' :: Text.quoted (convert x.text) else []
  Event.line (x.kind.name ++ '\t' :: Text.quoted x.text ++ converted)

/-- What a session prints before its first line. -/
def opening : Session → Printed
  | execute _ => {}
  | dump => ⟨Event.line "<kind>\t<repr(lexeme)>\t[postfix]".toList, []⟩

/-- Reads a line that is not too long. -/
def readStripped (s : Session) (line : Text) : Reaction :=
  match s with
  | execute m =>
    let run := m.process line true
    ⟨⟨run.out, run.err⟩,
      match run.failure with
      | some failure => .error (statusOf failure)
      | none => .ok (execute run.machine)⟩
  | dump => ⟨⟨(lexemes true line).flatMap dumpLine, []⟩, .ok dump⟩

/-- Reads a line. -/
def read (s : Session) (line : Text) : Reaction :=
  let line := Input.stripEnd line
  if lineLimit < line.length then ⟨{}, .error lineTooLongStatus⟩ else s.readStripped line

/-- Reads lines until the session ends: what is printed, and the status with which the session has
ended, if it has. -/
def readAll (s : Session) : List Text → Printed × Option Nat
  | [] => ({}, none)
  | line :: rest =>
    let reaction := s.read line
    match reaction.next with
    | .error status => (reaction.printed, some status)
    | .ok next =>
      let later := next.readAll rest
      (reaction.printed ++ later.1, later.2)

@[simp] theorem readAll_nil (s : Session) : s.readAll [] = ({}, none) := rfl

theorem readAll_cons_of_error {s : Session} {line : Text} {status : Nat}
    (h : (s.read line).next = .error status) (rest : List Text) :
    s.readAll (line :: rest) = ((s.read line).printed, some status) := by
  simp [readAll, h]

theorem readAll_cons_of_ok {s next : Session} {line : Text}
    (h : (s.read line).next = .ok next) (rest : List Text) :
    s.readAll (line :: rest) =
      ((s.read line).printed ++ (next.readAll rest).1, (next.readAll rest).2) := by
  simp [readAll, h]

end Session

end RpnCalculator
