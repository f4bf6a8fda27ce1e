import RpnCalculator.CommandLine.Flag
import RpnCalculator.Machine.Basic
import RpnCalculator.Text.Numeral

/-!
# What the arguments ask for

`Request.ofArguments?` reads the arguments from left to right. Each is first classified by its
spelling: it is plain, or it begins with a flag, or it looks like a flag that does not exist. A long
name may be cut short as long as it is that of one flag. A flag may have its value attached, and
flags of one letter may share one argument if none but the last takes a value. A flag that takes
values and has none attached takes them from the arguments that follow.

The argument `--` ends the flags. No flag takes it as a value, and neither it nor what follows it
has a meaning.

The errors come in the order in which the arguments are read, with two exceptions: a long name that
may be short for several flags is an error before any argument is read, whatever it would be taken
for, and arguments without a meaning are reported last. The help is shown as soon as its flag is
reached.
-/

namespace RpnCalculator

/-- What an argument is by its spelling: no flag, something like a flag that does not exist, a flag
of one letter, or a flag by its long name. A flag may have a text attached. -/
inductive Argument where
  | plain
  | unknown
  | short (flag : Flag) (attached : Option Text)
  | long (flag : Flag) (attached : Option Text)
  /-- A text that may be short for the long names of several flags. -/
  | ambiguous (flags : List Flag)
deriving DecidableEq, Repr

namespace Argument

/-- A text without a line feed at its end. -/
def dropFinalNewline (text : Text) : Text :=
  if text.getLast? = some '\n' then text.dropLast else text

/-- Whether a text after a dash makes a negative number: digits, or digits after a point, which may
itself follow digits. A line feed may come after. -/
def isNumberBody (text : Text) : Bool :=
  let body := dropFinalNewline text
  match body.dropWhile Text.isDecimalDigit with
  | [] => ! body.isEmpty
  | '.' :: digits => ! digits.isEmpty && digits.all Text.isDecimalDigit
  | _ => false

/-- What an argument that begins with a dash, but with no flag, is: negative numbers and texts with
a space are plain. -/
def ofDashed (text : Text) : Argument :=
  if isNumberBody text || text.contains ' ' then .plain else .unknown

/-- A text split at its first equals sign. -/
def splitMark (text : Text) : Text × Option Text :=
  match text.dropWhile (· != '=') with
  | [] => (text, none)
  | _ :: value => (text.takeWhile (· != '='), some value)

/-- What is attached to the first letter of an argument by the text after it. An equals sign between
them is not part of it. -/
def attached : Text → Option Text
  | [] => none
  | '=' :: value => some value
  | text => some text

/-- What an argument is. -/
def ofText : Text → Argument
  | '-' :: '-' :: text =>
    let parts := splitMark text
    match Flag.completions parts.1 with
    | [] => ofDashed ('-' :: text)
    | [flag] => .long flag parts.2
    | flags => .ambiguous flags
  | ['-'] => .plain
  | '-' :: c :: text =>
    match Flag.ofShort? c with
    | some flag => .short flag (attached text)
    | none => ofDashed (c :: text)
  | _ => .plain

/-- What is wrong with an argument that may be short for several flags. -/
def ambiguity? (text : Text) : Option UsageError :=
  match ofText text with
  | .ambiguous flags => some (.ambiguous text flags)
  | _ => none

/-- The argument that ends the flags. -/
def terminator : Text := ['-', '-']

end Argument

/-- A flag with the values that stand in its own argument. -/
structure Occurrence where
  flag : Flag
  values : List Text
deriving DecidableEq, Repr

/-- The flags that one argument holds. -/
structure Cluster where
  /-- The flags that have all they take. -/
  complete : List Occurrence := []
  /-- The last flag, if its values are to come from the arguments that follow. -/
  waiting : Option Flag := none
  /-- The argument itself, if it has no meaning. -/
  stray : List Text := []
deriving DecidableEq, Repr

namespace Cluster

/-- One flag that waits for its values. -/
def ofWaiting (flag : Flag) : Cluster := ⟨[], some flag, []⟩

/-- A cluster with one more flag, without values, in front. -/
def cons (flag : Flag) (rest : Cluster) : Cluster :=
  { rest with complete := ⟨flag, []⟩ :: rest.complete }

/-- A flag with what is attached to it, which is its value. -/
def ofAttached (flag : Flag) : Option Text → Except UsageError Cluster
  | none => .ok (ofWaiting flag)
  | some value =>
    if flag.arity = .none then .error (.ignoredValue flag value)
    else .ok ⟨[⟨flag, [value]⟩], none, []⟩

/-- A flag of one letter with the text after it. If the flag takes values, the text is its value;
otherwise each letter of the text is a flag in turn. -/
def ofLetters (flag : Flag) : Text → Except UsageError Cluster
  | [] => .ok (ofWaiting flag)
  | c :: text =>
    if flag.arity = .none then
      match Flag.ofShort? c with
      | some next => (ofLetters next text).map (cons flag)
      | none => .error (.ignoredValue flag (c :: text))
    else .ok ⟨[⟨flag, [c :: text]⟩], none, []⟩

/-- The values that a waiting flag takes from the arguments that follow. -/
def valuesOf (flag : Flag) (following : List Text) : Except UsageError (List Text) :=
  let next := following.head?.filter fun text => Argument.ofText text == .plain
  match flag.arity with
  | .none => .ok []
  | .optional => .ok next.toList
  | .rest => .ok following
  | .one =>
    match next with
    | some text => .ok [text]
    | none => .error (.missingValue flag)

/-- The flags of an argument with all their values, and how many of the arguments that follow are
among these. -/
def resolve (cluster : Cluster) (following : List Text) :
    Except UsageError (List Occurrence × Nat) :=
  match cluster.waiting with
  | none => .ok (cluster.complete, 0)
  | some flag =>
    (valuesOf flag following).map fun values =>
      (cluster.complete ++ [⟨flag, values⟩], values.length)

/-- The flags of an argument. An argument that has none is left over as a whole. -/
def ofArgument (text : Text) : Except UsageError Cluster :=
  match Argument.ofText text with
  | .plain => .ok ⟨[], none, [text]⟩
  | .unknown => .ok ⟨[], none, [text]⟩
  | .short flag (some (c :: text)) => ofLetters flag (c :: text)
  | .short flag attached => ofAttached flag attached
  | .long flag attached => ofAttached flag attached
  | .ambiguous flags => .error (.ambiguous text flags)

end Cluster

/-- What the program is to do: run the lines, list their lexemes, or print the grammar. -/
inductive Task where
  | execute
  | dump
  | showGrammar
deriving DecidableEq, Repr

/-- What the arguments ask for. -/
structure Request where
  task : Task := .execute
  verbose : Bool := false
  seed : Int := Machine.defaultSeed
  /-- The lines, if they are among the arguments. -/
  expressions : Option (List Text) := none
  /-- The text of the prompt, if one is asked for. -/
  prompt : Option Text := none
deriving DecidableEq, Repr

/-- Why the arguments make no request: the help is asked for, or they are wrong. -/
inductive Refusal where
  | help
  | usage (error : UsageError)
deriving DecidableEq, Repr

namespace Request

/-- The prompt if none is given. -/
def defaultPrompt : Text := "> ".toList

/-- A request while the arguments are read, with the flags met so far and the arguments that have no
meaning, in order. -/
structure Draft where
  request : Request := {}
  seen : List Flag := []
  stray : List Text := []
deriving DecidableEq, Repr

/-- Records a flag; a flag that excludes it must not have been met before. -/
def Draft.record (d : Draft) (flag : Flag) : Except Refusal Draft :=
  match flag.rival?.filter (· ∈ d.seen) with
  | some earlier => .error (.usage (.conflict flag earlier))
  | none => .ok { d with seen := flag :: d.seen }

/-- The request after a flag with its values. The seed must be an integer. -/
def withFlag (r : Request) : Occurrence → Except Refusal Request
  | ⟨.help, _⟩ => .error .help
  | ⟨.verbose, _⟩ => .ok { r with verbose := true }
  | ⟨.seed, values⟩ =>
    match values.head?.bind (Text.read? 10) with
    | some seed => .ok { r with seed := seed }
    | none => .error (.usage (.invalidSeed (values.headD [])))
  | ⟨.expression, values⟩ => .ok { r with expressions := some values }
  | ⟨.prompt, values⟩ => .ok { r with prompt := some (values.headD defaultPrompt) }
  | ⟨.rawGrammar, _⟩ => .ok { r with task := .showGrammar }
  | ⟨.dump, _⟩ => .ok { r with task := .dump }

/-- The draft after a flag with its values. -/
def Draft.withFlag (d : Draft) (occurrence : Occurrence) : Except Refusal Draft := do
  let d ← d.record occurrence.flag
  let request ← d.request.withFlag occurrence
  return { d with request := request }

/-- Reads the arguments after the first `taken`, which an earlier flag has taken as its values. -/
def Draft.read (d : Draft) : Nat → List Text → Except Refusal Draft
  | _, [] => .ok d
  | taken + 1, _ :: rest => d.read taken rest
  | 0, text :: rest => do
    let cluster ← (Cluster.ofArgument text).mapError .usage
    let (occurrences, taken) ← (cluster.resolve rest).mapError .usage
    let d ← occurrences.foldlM Draft.withFlag { d with stray := d.stray ++ cluster.stray }
    d.read taken rest

/-- What the arguments ask for. -/
def ofArguments? (arguments : List Text) : Except Refusal Request :=
  let flags := arguments.takeWhile (· != Argument.terminator)
  match flags.findSome? Argument.ambiguity? with
  | some error => .error (.usage error)
  | none => do
    let d ← Draft.read {} 0 flags
    let stray := d.stray ++ arguments.dropWhile (· != Argument.terminator)
    if stray.isEmpty then .ok d.request else .error (.usage (.unrecognised stray))

end Request

end RpnCalculator
