import Chip8.Text.Plain

/-!
Why a command line yields no command, and the message about it.
-/

namespace Chip8.CommandLine

/-- A hint about a word that no argument takes. -/
inductive Hint where
  | similarOption (name : String)
  /-- A command that stands further right has the option. -/
  | optionOf (command name : String)
  /-- The word looks like an option but may be meant as a value. -/
  | asValue
  /-- The word is a command if the two dashes before it are left out. -/
  | asCommand
  deriving DecidableEq, Repr

inductive UsageError where
  /-- Help was asked for, which is an answer but not a command. -/
  | helpRequested (page : String)
  /-- No command word where one is needed. -/
  | nothingAsked (page : String)
  | unknownCommand (word : String) (similar : List String)
  | unknownArgument (word : String) (hint : Option Hint)
  | invalidValue (value label reason : String)
  /-- An option without its value, or an empty value where none may be. -/
  | missingValue (label : String)
  | missingArguments (labels : List String)
  | repeatedArgument (label : String)
  /-- A value attached to a switch. -/
  | unexpectedValue (value label : String)
  deriving DecidableEq, Repr

/-- Text in runs of one style each. Control sequences in a run end with it at the latest. -/
structure Message where
  runs : List String := []
  /-- The run that is still written. -/
  last : String := ""
  deriving DecidableEq, Repr

namespace Message

def say (m : Message) (s : String) : Message := { m with last := m.last ++ s }

/-- Adds a run in another style. -/
def stress (m : Message) (s : String) : Message := ⟨m.runs ++ [m.last, s], ""⟩

/-- What is seen of a message. -/
def text (m : Message) : String := String.join ((m.runs ++ [m.last]).map Text.plain)

end Message

private def quoted (words : List String) : String :=
  ", ".intercalate (words.map fun w => "'" ++ w ++ "'")

private def tip (m : Message) : Message := m.say "\n\n  tip: "

def Hint.addTo (word : String) (m : Message) : Hint → Message
  | similarOption name => (tip m).say ("a similar argument exists: '--" ++ name ++ "'")
  | optionOf command name => (tip m).say ("'" ++ command ++ " --" ++ name ++ "' exists")
  | asValue =>
    ((((tip m).say "to pass '").stress word).say "' as a value, use '").stress ("-- " ++ word)
      |>.say "'"
  | asCommand =>
    (((tip m).say "subcommand '").stress word).say
      "' exists; to use it, remove the '--' before it"

namespace UsageError

def message : UsageError → Message
  | helpRequested page | nothingAsked page => Message.say {} page
  | unknownCommand word similar =>
    let m := ((Message.say {} "error: unrecognized subcommand '").stress word).say "'"
    match similar with
    | [] => m
    | [name] => (tip m).say ("a similar subcommand exists: " ++ quoted [name])
    | names => (tip m).say ("some similar subcommands exist: " ++ quoted names)
  | unknownArgument word hint =>
    let m := ((Message.say {} "error: unexpected argument '").stress word).say "' found"
    match hint with
    | none => m
    | some hint => hint.addTo word m
  | invalidValue value label reason =>
    (((Message.say {} "error: invalid value '").stress value).say "' for '").stress label
      |>.say ("': " ++ reason)
  | missingValue label =>
    Message.say {} ("error: a value is required for '" ++ label ++ "' but none was supplied")
  | missingArguments labels =>
    Message.say {} ("error: the following required arguments were not provided:"
      ++ String.join (labels.map fun l => "\n  " ++ l))
  | repeatedArgument label =>
    Message.say {} ("error: the argument '" ++ label ++ "' cannot be used multiple times")
  | unexpectedValue value label =>
    ((Message.say {} "error: unexpected value '").stress value).say
      ("' for '" ++ label ++ "' found; no more were expected")

/-- Help is shown as it is. -/
def isHelp : UsageError → Bool
  | helpRequested _ | nothingAsked _ => true
  | _ => false

end UsageError

/-- An error with what its message says about the command. -/
structure Refusal where
  error : UsageError
  /-- How the command is used, where the message repeats it. -/
  usage : Option String := none
  /-- What to type for help. -/
  helpWord : Option String := none
  deriving DecidableEq, Repr

namespace Refusal

def message (r : Refusal) : Message :=
  if r.error.isHelp then r.error.message
  else
    let m := match r.usage with
      | some usage => r.error.message.say ("\n\nUsage: " ++ usage)
      | none => r.error.message
    match r.helpWord with
    | some word => ((m.say "\n\nFor more information, try '").stress word).say "'.\n"
    | none => m.say "\n"

def text (r : Refusal) : String := r.message.text

/-- The text up to the first line break. -/
def firstLine (r : Refusal) : String :=
  let line := r.text.toList.takeWhile (· ≠ '\n')
  String.ofList (if line.getLast? = some '\r' then line.dropLast else line)

end Refusal

end Chip8.CommandLine
