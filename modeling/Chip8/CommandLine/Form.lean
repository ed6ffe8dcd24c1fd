import Chip8.CommandLine.HelpPage
import Chip8.CommandLine.UsageError
import Chip8.Text.Similar

/-!
The arguments of one command: places for values, named options and switches. Words are taken from
left to right and fill a record.

A value is looked at when the next argument is accepted, or at the end. So a word that no argument
accepts is reported before the value that stands just left of it.
-/

namespace Chip8.CommandLine

inductive Word where
  /-- After two dashes alone, every word is a value. -/
  | separator
  | long (name : String) (attached : Option String)
  | short (letter : Char)
  | plain
  deriving DecidableEq, Repr

/-- Of several short letters only the first counts. -/
def Word.classify (w : String) : Word :=
  match w.toList with
  | ['-', '-'] => .separator
  | '-' :: '-' :: cs =>
    match cs.span (· ≠ '=') with
    | (name, _ :: value) => .long (String.ofList name) (some (String.ofList value))
    | (name, []) => .long (String.ofList name) none
  | '-' :: c :: _ => .short c
  | _ => .plain

/-- Why a value is refused. -/
inductive ValueError where
  | empty
  | bad (reason : String)
  deriving DecidableEq, Repr

/-- A place for a value in a record. -/
structure Slot (σ : Type) where
  /-- What stands for the value where the command is explained. -/
  name : String
  about : String := ""
  /-- The value that is there if none is given. -/
  default? : Option String := none
  store : String → σ → Except ValueError σ

/-- Stores what `read` makes of a text. -/
def reading {σ α : Type} (read : List Char → Except String α) (set : α → σ → σ) (text : String)
    (s : σ) : Except ValueError σ :=
  match read text.toList with
  | .ok a => .ok (set a s)
  | .error reason => .error (.bad reason)

/-- Stores a text that may not be empty. -/
def nonempty {σ : Type} (set : String → σ → σ) (text : String) (s : σ) : Except ValueError σ :=
  if text.isEmpty then .error .empty else .ok (set text s)

def Slot.meaning {σ : Type} (slot : Slot σ) : String :=
  let value := match slot.default? with
    | some text => ["[default: " ++ text ++ "]"]
    | none => []
  " ".intercalate ((if slot.about.isEmpty then [] else [slot.about]) ++ value)

structure Positional (σ : Type) where
  required : Bool := false
  slot : Slot σ

def Positional.label {σ : Type} (p : Positional σ) : String :=
  if p.required then "<" ++ p.slot.name ++ ">" else "[" ++ p.slot.name ++ "]"

structure NamedOption (σ : Type) where
  name : String
  slot : Slot σ

def NamedOption.label {σ : Type} (o : NamedOption σ) : String :=
  "--" ++ o.name ++ " <" ++ o.slot.name ++ ">"

structure Switch (σ : Type) where
  name : String
  about : String := ""
  turnOn : σ → σ

def Switch.label {σ : Type} (s : Switch σ) : String := "--" ++ s.name

structure Form (σ : Type) where
  about : String := ""
  positionals : List (Positional σ) := []
  options : List (NamedOption σ) := []
  switches : List (Switch σ) := []

/-- The argument taken last, whose value has not been looked at. -/
inductive Pending (σ : Type) where
  | nothing
  | positional (place : Positional σ) (text : String)
  | option (named : NamedOption σ) (text : Option String)

/-- How far a form has been filled. -/
structure Filling (σ : Type) where
  record : σ
  pending : Pending σ
  /-- Positionals still to come. -/
  free : List (Positional σ)
  /-- Labels of the options and switches stored. -/
  used : List String

namespace Filling

variable {σ : Type}

def store (f : Filling σ) (label : String) (slot : Slot σ) (text : String) :
    Except UsageError (Filling σ) :=
  match slot.store text f.record with
  | .ok record => .ok { f with record, pending := .nothing }
  | .error .empty => .error (.missingValue label)
  | .error (.bad reason) => .error (.invalidValue text label reason)

def storeNamed (f : Filling σ) (o : NamedOption σ) (text : String) :
    Except UsageError (Filling σ) :=
  if f.used.contains o.label then .error (.repeatedArgument o.label)
  else { f with used := o.label :: f.used }.store o.label o.slot text

/-- Looks at the value of the argument taken last. -/
def settle (f : Filling σ) : Except UsageError (Filling σ) :=
  match f.pending with
  | .nothing => .ok f
  | .positional place text => f.store place.label place.slot text
  | .option o none => .error (.missingValue o.label)
  | .option o (some text) => f.storeNamed o text

def takePositional (f : Filling σ) (text : String) : Except UsageError (Filling σ) :=
  match f.free with
  | [] => .error (.unknownArgument text none)
  | place :: free => f.settle.map fun f => { f with free, pending := .positional place text }

/-- A plain word is the value of an option that waits for one, and else a positional. -/
def takePlain (f : Filling σ) (text : String) : Except UsageError (Filling σ) :=
  match f.pending with
  | .option o none => .ok { f with pending := .option o (some text) }
  | _ => f.takePositional text

def takeOption (f : Filling σ) (o : NamedOption σ) (attached : Option String) :
    Except UsageError (Filling σ) :=
  f.settle.bind fun f =>
    match attached with
    | some text => f.storeNamed o text
    | none => .ok { f with pending := .option o none }

def takeSwitch (f : Filling σ) (s : Switch σ) : Except UsageError (Filling σ) :=
  f.settle.bind fun f =>
    if f.used.contains s.label then .error (.repeatedArgument s.label)
    else .ok { f with record := s.turnOn f.record, used := s.label :: f.used }

end Filling

namespace Form

variable {σ α : Type}

/-- Whether a word has gone to an argument of the form. -/
def isBegun (form : Form σ) (f : Filling σ) : Bool :=
  f.free.length < form.positionals.length || !f.used.isEmpty

/-- The arguments as one choice. -/
def choice (form : Form σ) : String :=
  "<" ++ "|".intercalate (form.positionals.map (·.slot.name) ++ form.options.map NamedOption.label
    ++ form.switches.map Switch.label) ++ ">"

private def usageLine (path : String) (arguments : List String) : String :=
  " ".intercalate ((if path.isEmpty then [] else [path]) ++ arguments)

/-- How the command is used. -/
def usage (form : Form σ) (path : String) : String :=
  let options := if form.options.isEmpty && form.switches.isEmpty then [] else ["[OPTIONS]"]
  usageLine path (options ++ form.positionals.map Positional.label)

/-- How it is used with some arguments named. Once it is begun, all of them are one choice. -/
def usageWith (form : Form σ) (path : String) (named : List String) (begun : Bool) : String :=
  if begun then usageLine path (named ++ [form.choice])
  else if named.isEmpty then form.usage path
  else usageLine path (named ++ form.positionals.map Positional.label)

def page (form : Form σ) (path : String) : HelpPage where
  about := form.about
  usage := form.usage path
  parts :=
    [ ("Arguments", form.positionals.map fun p => (p.label, p.slot.meaning)),
      ("Options", (form.options.map fun o => ("    " ++ o.label, o.slot.meaning))
        ++ (form.switches.map fun s => ("    " ++ s.label, s.about)) ++ [HelpPage.helpSwitch]) ]

/-- Adds to an error how the command is used, except to one about a value. -/
def refuse (form : Form σ) (path : String) (error : UsageError) : Refusal where
  error
  usage := match error with
    | .invalidValue _ _ _ | .missingValue _ => none
    | _ => some (form.usage path)
  helpWord := some "--help"

def help (form : Form σ) (path : String) : Refusal :=
  form.refuse path (.helpRequested (form.page path).text)

def longNames (form : Form σ) : List String :=
  form.options.map NamedOption.name ++ form.switches.map Switch.name ++ ["help"]

/-- What is said of an option that does not exist. One that may be meant counts as given. -/
def refuseLong (form : Form σ) (path : String) (f : Filling σ) (name : String) : Refusal :=
  match (Text.similar name form.longNames).getLast? with
  | some meant =>
    let named := if meant = "help" then ["--help"] else []
    { error := .unknownArgument ("--" ++ name) (some (.similarOption meant)),
      usage := some (form.usageWith path named (form.isBegun f || meant ≠ "help")),
      helpWord := some "--help" }
  | none =>
    let hint := if form.positionals.isEmpty then none else some Hint.asValue
    { error := .unknownArgument ("--" ++ name) hint,
      usage := some (form.usageWith path [] (form.isBegun f)), helpWord := some "--help" }

def takeLong (form : Form σ) (path : String) (f : Filling σ) (name : String)
    (attached : Option String) : Except Refusal (Filling σ) :=
  match form.options.find? (·.name = name) with
  | some o => (f.takeOption o attached).mapError (form.refuse path)
  | none =>
    let switch := form.switches.find? (·.name = name)
    match attached, switch with
    | none, some s => (f.takeSwitch s).mapError (form.refuse path)
    | none, none =>
      if name = "help" then
        match f.settle with
        | .ok _ => .error (form.help path)
        | .error e => .error (form.refuse path e)
      else .error (form.refuseLong path f name)
    | some value, _ =>
      if name = "help" || switch.isSome then
        .error { error := .unexpectedValue value ("--" ++ name),
                 usage := some (form.usageWith path ["--" ++ name] (form.isBegun f)),
                 helpWord := some "--help" }
      else .error (form.refuseLong path f name)

/-- The only short letter is `h`, for help. -/
def takeWord (form : Form σ) (path : String) (f : Filling σ) (w : String) :
    Except Refusal (Filling σ) :=
  match Word.classify w with
  | .separator => .ok f
  | .long name attached => form.takeLong path f name attached
  | .short letter =>
    if letter = 'h' then form.takeLong path f "help" none
    else
      let hint := if form.positionals.isEmpty then none else some Hint.asValue
      .error (form.refuse path (.unknownArgument ("-" ++ letter.toString) hint))
  | .plain => (f.takePlain w).mapError (form.refuse path)

def fillValues (f : Filling σ) : List String → Except UsageError (Filling σ)
  | [] => f.settle
  | w :: ws => (f.takePositional w).bind fun f => fillValues f ws

def fill (form : Form σ) (path : String) (f : Filling σ) :
    List String → Except Refusal (Filling σ)
  | [] => f.settle.mapError (form.refuse path)
  | w :: ws =>
    if Word.classify w = .separator then (fillValues f ws).mapError (form.refuse path)
    else (form.takeWord path f w).bind fun f => fill form path f ws

/-- Fills a form that starts as `blank`. What `finish` cannot use lacks an argument. -/
def parse (form : Form σ) (blank : σ) (finish : σ → Option α) (path : String)
    (ws : List String) : Except Refusal α :=
  match form.fill path ⟨blank, .nothing, form.positionals, []⟩ ws with
  | .error e => .error e
  | .ok f =>
    match finish f.record with
    | some a => .ok a
    | none =>
      .error (form.refuse path
        (.missingArguments ((f.free.filter Positional.required).map Positional.label)))

end Form

end Chip8.CommandLine
