import RpnCalculator.CommandLine.Program

/-!
# The command line

Reads the arguments, the input and the terminal, and prints what the program says. At a prompt the
lines are read one at a time, so that each is answered before the next is typed.
-/

namespace RpnCalculator

/-- Prints on both streams. -/
def Printed.print (p : Printed) : IO Unit := do
  let stdout ← IO.getStdout
  let stderr ← IO.getStderr
  unless p.out.isEmpty do
    stdout.putStr (String.ofList p.out)
    stdout.flush
  unless p.err.isEmpty do
    stderr.putStr (String.ofList p.err)
    stderr.flush

/-- Prompts for lines and answers them until the session ends or there are no more lines. -/
partial def Session.converse (s : Session) (prompt : Text) : IO Nat := do
  let stdout ← IO.getStdout
  stdout.putStr (String.ofList prompt)
  stdout.flush
  let line ← (← IO.getStdin).getLine
  if line.isEmpty then
    return 0
  let reaction := s.read line.toList
  reaction.printed.print
  match reaction.next with
  | .error status => return status
  | .ok next => next.converse prompt

/-- Reads all bytes that are left in a stream. -/
partial def readBytes (stream : IO.FS.Stream) (bytes : ByteArray) : IO ByteArray := do
  let more ← stream.read 65536
  if more.isEmpty then return bytes else readBytes stream (bytes ++ more)

/-- Does what the arguments ask for, and returns the exit status. -/
def Program.main (arguments : List String) : IO UInt32 := do
  let stdin ← IO.getStdin
  let stdout ← IO.getStdout
  let inputIsTerminal ← stdin.isTty
  let outputIsTerminal ← stdout.isTty
  match Request.ofArguments? (arguments.map String.toList) with
  | .error refusal =>
    let outcome := ofRefusal refusal
    outcome.printed.print
    return outcome.status.toUInt32
  | .ok request =>
    let console : Console := { lineEnds := .feed, inputIsTerminal, outputIsTerminal }
    match request.session?, request.source inputIsTerminal outputIsTerminal with
    | some s, .prompt text =>
      s.opening.print
      return (← s.converse text).toUInt32
    | some _, .input =>
      let bytes ← readBytes stdin .empty
      let outcome := answer request { console with input := bytes.toList }
      outcome.printed.print
      return outcome.status.toUInt32
    | _, _ =>
      let outcome := answer request console
      outcome.printed.print
      return outcome.status.toUInt32

end RpnCalculator

/-- The calculator. -/
def main (arguments : List String) : IO UInt32 := RpnCalculator.Program.main arguments
