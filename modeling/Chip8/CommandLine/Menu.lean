import Chip8.CommandLine.Form

/-!
Commands chosen by a word, some of them groups that are chosen from by the next word. Every group
has one more command, `help`, which takes the path to a command.

A command goes by its first name where it is explained. Its path is that name after the path of its
group.
-/

namespace Chip8.CommandLine

/-- A command without its name. -/
structure Action (α : Type) where
  about : String
  usage : String → String
  page : String → HelpPage
  parse : String → List String → Except Refusal α

/-- The command with the arguments of a form. -/
def Form.action {σ α : Type} (form : Form σ) (blank : σ) (finish : σ → Option α) : Action α where
  about := form.about
  usage := form.usage
  page := form.page
  parse := form.parse blank finish

inductive Menu (α : Type) where
  | command (names : List String) (action : Action α)
  | group (names : List String) (entries : List (Menu α))

namespace Menu

variable {α : Type}

def names : Menu α → List String
  | command names _ => names
  | group names _ => names

def name (entry : Menu α) : String := entry.names.headD ""

def about : Menu α → String
  | command _ action => action.about
  | group _ _ => ""

def find? (entries : List (Menu α)) (w : String) : Option (Menu α) :=
  entries.find? fun entry => entry.names.contains w

/-- The path of a command in the group at `path`. -/
def pathTo (path name : String) : String := if path.isEmpty then name else path ++ " " ++ name

def allNames (entries : List (Menu α)) : List String := entries.flatMap names ++ ["help"]

/-- A row in the list of commands, with the other names of the command at its end. -/
def row (entry : Menu α) : String × String :=
  let others := match entry.names.drop 1 with
    | [] => []
    | names => ["[aliases: " ++ ", ".intercalate names ++ "]"]
  (entry.name, " ".intercalate ((if entry.about.isEmpty then [] else [entry.about]) ++ others))

def helpAbout : String := "Print this message or the help of the given subcommand(s)"

/-- The command `help` of the group at `path`. -/
def helpPage (path : String) : HelpPage where
  about := helpAbout
  usage := pathTo path "help [COMMAND]..."
  parts := [("Arguments", [("[COMMAND]...", "Print help for the subcommand(s)")])]

/-- A group of commands. The outermost one is no command itself, so it has no switch for help. -/
structure Level (α : Type) where
  path : String
  outermost : Bool
  entries : List (Menu α)

namespace Level

def usage (level : Level α) (options : List String) : String :=
  " ".intercalate ((if level.path.isEmpty then [] else [level.path]) ++ options ++ ["<COMMAND>"])

def page (level : Level α) : HelpPage where
  usage := level.usage []
  parts :=
    [ ("Commands", level.entries.map row ++ [("help", helpAbout)]),
      ("Options", if level.outermost then [] else [HelpPage.helpSwitch]) ]

def refuseWith (level : Level α) (options : List String) (error : UsageError) : Refusal where
  error
  usage := some (level.usage options)
  helpWord := some (if level.outermost then "help" else "--help")

def refuse (level : Level α) (error : UsageError) : Refusal := level.refuseWith [] error

def nothingAsked (level : Level α) : Refusal := level.refuse (.nothingAsked level.page.text)

def unknownCommand (level : Level α) (w : String) : Refusal :=
  level.refuse (.unknownCommand w (Text.similar w (allNames level.entries)))

/-- The group `entries` in this group. -/
def inner (level : Level α) (names : List String) (entries : List (Menu α)) : Level α :=
  ⟨pathTo level.path (names.headD ""), false, entries⟩

/-- What is said of an option, which no group has. The outermost one looks for it at the commands
named further right. -/
def refuseLong (level : Level α) (name : String) (ws : List String) : Refusal :=
  if (Text.similar name ["help"]).isEmpty then
    level.refuse (.unknownArgument ("--" ++ name) none)
  else if level.outermost then
    let hint := (ws.find? fun w => level.entries.any (·.name = w)).map (Hint.optionOf · "help")
    level.refuse (.unknownArgument ("--" ++ name) hint)
  else
    level.refuseWith ["--help"] (.unknownArgument ("--" ++ name) (some (.similarOption "help")))

/-- What is wrong with a first word that names no command. -/
def refuseWord (level : Level α) (w : String) (ws : List String) : Refusal :=
  match Word.classify w with
  | .separator =>
    match ws with
    | [] => level.nothingAsked
    | v :: _ =>
      if (allNames level.entries).contains v then
        level.refuse (.unknownArgument v (some .asCommand))
      else level.unknownCommand v
  | .long name attached =>
    if name = "help" ∧ !level.outermost then
      match attached with
      | some value => level.refuseWith ["--help"] (.unexpectedValue value "--help")
      | none => level.refuse (.helpRequested level.page.text)
    else level.refuseLong name ws
  | .short letter =>
    if letter = 'h' ∧ !level.outermost then level.refuse (.helpRequested level.page.text)
    else level.refuse (.unknownArgument ("-" ++ letter.toString) none)
  | .plain => level.unknownCommand w

end Level

/-- The answer to `help` with a path. -/
def help (level : Level α) : List String → Refusal
  | [] => level.refuse (.helpRequested level.page.text)
  | w :: ws =>
    match find? level.entries w with
    | some (.group names entries) => help (level.inner names entries) ws
    | some (.command names action) =>
      let path := pathTo level.path (names.headD "")
      match ws with
      | [] => { error := .helpRequested (action.page path).text }
      | v :: _ =>
        { error := .unknownCommand v [], usage := some (action.usage path),
          helpWord := some "--help" }
    | none =>
      if w = "help" then
        let page := helpPage level.path
        match ws with
        | [] => { error := .helpRequested page.text }
        | v :: _ => { error := .unknownCommand v [], usage := some page.usage }
      else level.refuse (.unknownCommand w [])

def parseAt (level : Level α) : List String → Except Refusal α
  | [] => .error level.nothingAsked
  | w :: ws =>
    match find? level.entries w with
    | some (.command names action) => action.parse (pathTo level.path (names.headD "")) ws
    | some (.group names entries) => parseAt (level.inner names entries) ws
    | none =>
      if w = "help" then .error (help level ws)
      else .error (level.refuseWord w ws)

/-- Finds and fills the command that the words ask for. -/
def parse (entries : List (Menu α)) (program : String) (ws : List String) : Except Refusal α :=
  parseAt ⟨program, true, entries⟩ ws

end Menu

end Chip8.CommandLine
