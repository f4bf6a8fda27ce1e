import RpnCalculator.CommandLine.Request
import RpnCalculator.CommandLine.Session

/-!
# The program

`Program.run` is the whole program as a function: from the arguments and from what is to be had at
the console, the exit status and what is printed. The lines of a session come from the arguments, or
from an interactive prompt, or from standard input. A prompt is opened if its text is given, or if
both standard streams are terminals.
-/

namespace RpnCalculator

/-- What is to be had at the console: the bytes of standard input and what ends a line of them, which
of the two standard streams are terminals, and what is typed at a prompt. -/
structure Console where
  input : List UInt8 := []
  lineEnds : Input.LineEnds := .any
  inputIsTerminal : Bool := false
  outputIsTerminal : Bool := false
  typed : List Text := []
  /-- Whether the prompt is interrupted after the typed lines, and not just left. -/
  interrupted : Bool := false
deriving DecidableEq, Repr

/-- What becomes of the program: its exit status, the prompt if one was opened, and what it prints. -/
structure Outcome where
  status : Nat := 0
  prompt : Option Text := none
  printed : Printed := {}
deriving DecidableEq, Repr

/-- Where the lines of a session come from: the arguments, a prompt with the given text, or standard
input. -/
inductive Source where
  | arguments (lines : List Text)
  | prompt (text : Text)
  | input
deriving DecidableEq, Repr

namespace Request

/-- Where the lines come from. -/
def source (r : Request) (inputIsTerminal outputIsTerminal : Bool) : Source :=
  match r.expressions with
  | some lines => .arguments lines
  | none =>
    let asked := r.prompt.filter (! ·.isEmpty)
    if asked.isSome || (inputIsTerminal && outputIsTerminal) then
      .prompt (asked.getD defaultPrompt)
    else .input

/-- The session that the task needs, if it needs one. -/
def session? (r : Request) : Option Session :=
  match r.task with
  | .execute => some (.execute (.ofSeed r.seed r.verbose))
  | .dump => some .dump
  | .showGrammar => none

end Request

namespace Program

/-- The grammar of lexemes, as one pattern with an alternative for each kind. -/
def grammar : Text :=
  ("(?<octal>-?0[0-7]+)|(?<malformed>-?0\\d\x7b2,\x7d)|(?<decimal>-?\\d+)|" ++
    "(?<operator>[\\-\\+\\*/%\\^])|(?<comment>\\#)|(?<character>\\S)|(?<infix>\\S+)").toList

/-- The exit status after wrong arguments. -/
def usageStatus : Nat := 2

/-- The exit status after an interrupt. -/
def interruptStatus : Nat := 1

/-- The outcome of a refused request. -/
def ofRefusal : Refusal → Outcome
  | .help => ⟨0, none, ⟨helpText, []⟩⟩
  | .usage error => ⟨usageStatus, none, ⟨[], error.report⟩⟩

/-- The lines of a source. -/
def linesOf (console : Console) : Source → List Text
  | .arguments lines => lines
  | .prompt _ => console.typed
  | .input => Input.linesBy console.lineEnds (Input.decode console.input)

/-- The prompt of a source. -/
def promptOf : Source → Option Text
  | .prompt text => some text
  | _ => none

/-- The exit status of a session that has read all lines. -/
def lastStatus (console : Console) : Source → Nat
  | .prompt _ => if console.interrupted then interruptStatus else 0
  | _ => 0

/-- The outcome of a session that reads the lines of a source. -/
def converse (s : Session) (console : Console) (source : Source) : Outcome :=
  let read := s.readAll (linesOf console source)
  ⟨read.2.getD (lastStatus console source), promptOf source, s.opening ++ read.1⟩

/-- The outcome of a request. -/
def answer (request : Request) (console : Console) : Outcome :=
  match request.session? with
  | none => ⟨0, none, ⟨Event.line grammar, []⟩⟩
  | some s =>
    converse s console (request.source console.inputIsTerminal console.outputIsTerminal)

/-- The outcome of the program. -/
def run (arguments : List Text) (console : Console) : Outcome :=
  match Request.ofArguments? arguments with
  | .error refusal => ofRefusal refusal
  | .ok request => answer request console

end Program

end RpnCalculator
