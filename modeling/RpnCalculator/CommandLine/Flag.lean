import RpnCalculator.Text.Quoted

/-!
# Flags of the command line

The flags with their names, the values they take and the pairs that exclude each other, and the
texts about them: the usage line, the help, and the wording of a usage error.
-/

namespace RpnCalculator

/-- A flag of the command line. -/
inductive Flag where
  | help
  | verbose
  | seed
  | expression
  | prompt
  | rawGrammar
  | dump
deriving DecidableEq, Repr

/-- How many of the arguments after a flag are its values: none, one that must be there, one if
there is one, or all that follow, whatever they look like. -/
inductive Arity where
  | none
  | one
  | optional
  | rest
deriving DecidableEq, Repr

namespace Flag

/-- All flags. -/
def all : List Flag := [help, verbose, seed, expression, prompt, rawGrammar, dump]

/-- The letter of a flag, written after one dash. -/
def short : Flag → Char
  | help => 'h'
  | verbose => 'v'
  | seed => 's'
  | expression => 'e'
  | prompt => 'p'
  | rawGrammar => 'G'
  | dump => 'D'

/-- The long name of a flag, written after two dashes. -/
def long : Flag → Text
  | help => "help".toList
  | verbose => "verbose".toList
  | seed => "seed".toList
  | expression => "expression".toList
  | prompt => "prompt".toList
  | rawGrammar => "raw-grammar".toList
  | dump => "dump".toList

/-- How many values a flag takes. -/
def arity : Flag → Arity
  | seed => .one
  | expression => .rest
  | prompt => .optional
  | _ => .none

/-- The flag that must not be given together with a flag, if there is one. -/
def rival? : Flag → Option Flag
  | expression => some prompt
  | prompt => some expression
  | rawGrammar => some dump
  | dump => some rawGrammar
  | _ => none

/-- The flag of a letter. -/
def ofShort? (c : Char) : Option Flag := all.find? (·.short == c)

/-- The flags whose long names begin with a text. No long name begins another one. -/
def completions (beginning : Text) : List Flag := all.filter (beginning.isPrefixOf ·.long)

/-- A flag in messages: both its names. -/
def name (f : Flag) : Text := '-' :: f.short :: '/' :: '-' :: '-' :: f.long

end Flag

/-- What is wrong with the arguments. -/
inductive UsageError where
  | invalidSeed (text : Text)
  | missingValue (flag : Flag)
  /-- A text is attached to a flag that takes no value, and it is not made of flags. -/
  | ignoredValue (flag : Flag) (text : Text)
  | conflict (later earlier : Flag)
  /-- A text that may be short for the long names of several flags. -/
  | ambiguous (text : Text) (flags : List Flag)
  | unrecognised (arguments : List Text)
deriving DecidableEq, Repr

/-- The name that the program goes by in its messages. -/
def programName : Text := "srpn".toList

/-- The usage line. -/
def usageLine : Text :=
  "usage: ".toList ++ programName ++
    " [-h] [-v] [-s SEED] [-e ... | -p [PROMPT]] [-G | -D]\n".toList

/-- The help. -/
def helpText : Text :=
  usageLine ++
    ("\nSaturating RPN calculator, bug for bug\n" ++
      "\noptions:\n" ++
      "  -h, --help            show this help message and exit\n" ++
      "  -v, --verbose\n" ++
      "  -s SEED, --seed SEED\n" ++
      "  -e ..., --expression ...\n" ++
      "  -p [PROMPT], --prompt [PROMPT]\n" ++
      "  -G, --raw-grammar\n" ++
      "  -D, --dump\n").toList

namespace UsageError

/-- A message about one flag. -/
def about (flag : Flag) (message : Text) : Text :=
  "argument ".toList ++ flag.name ++ ": ".toList ++ message

/-- The wording of a usage error. -/
def message : UsageError → Text
  | invalidSeed text => about .seed ("invalid int value: ".toList ++ Text.quoted text)
  | missingValue flag => about flag "expected one argument".toList
  | ignoredValue flag text => about flag ("ignored explicit argument ".toList ++ Text.quoted text)
  | conflict later earlier => about later ("not allowed with argument ".toList ++ earlier.name)
  | ambiguous text flags =>
    "ambiguous option: ".toList ++ text ++ " could match ".toList ++
      [',', ' '].intercalate (flags.map fun f => '-' :: '-' :: f.long)
  | unrecognised arguments =>
    "unrecognized arguments: ".toList ++ [' '].intercalate arguments

/-- What is printed about a usage error. -/
def report (e : UsageError) : Text :=
  usageLine ++ programName ++ ": error: ".toList ++ e.message ++ ['\n']

end UsageError

end RpnCalculator
