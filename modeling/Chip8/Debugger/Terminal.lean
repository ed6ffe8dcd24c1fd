import Chip8.Debugger
import Chip8.Debugger.CommandLine
import Chip8.HeldKeys
import Chip8.HexDump
import Chip8.Instruction.Listing
import Chip8.KeypadLayout

/-!
The debugger in a terminal. While the machine is paused the keyboard types commands; while it runs
the keyboard is the keypad.
-/

namespace Chip8

inductive KeyCode where
  | char (c : Char)
  | enter
  | escape
  | backspace
  | other
  deriving DecidableEq, Repr

inductive KeyEventKind where
  | press
  | repeated
  | release
  deriving DecidableEq, Repr

structure KeyEvent where
  code : KeyCode
  kind : KeyEventKind := .press
  control : Bool := false
  deriving DecidableEq, Repr

structure Terminal where
  debugger : Debugger
  held : HeldKeys
  input : String
  output : String
  /-- The command that an empty line repeats. -/
  last : Option Command
  quit : Bool

def ListedWord.text (l : ListedWord) : String :=
  Hex.text 3 l.address.toNat ++ "  " ++ Hex.text 4 l.word.toNat ++ "  " ++ l.instruction.text

def Reply.text : Reply → String
  | .done => "OK"
  | .breakpoints [] => "No breakpoints"
  | .breakpoints addresses => " ".intercalate (addresses.map fun a => Hex.text 3 a.toNat)
  | .dump data offset => HexDump.text offset.toNat data
  | .listing lines => "\n".intercalate (lines.map ListedWord.text)
  | .quit => ""

namespace Terminal

def start (m : Machine) : Terminal where
  debugger := .start m
  held := .none
  input := ""
  output := "Type a command, e.g. `step`, `run` or `help`"
  last := none
  quit := false

def machine (t : Terminal) : Machine := t.debugger.machine

/-- What a poll has to say; nothing if it just used up its time. -/
def pollText? (m : Machine) : Except StepError UpdateOutcome → Option String
  | .ok .completed => none
  | .ok .hitBreakpoint => some ("Breakpoint hit at " ++ Hex.text 3 m.pc.toNat)
  | .ok .waitingForKey => some "Waiting for key"
  | .error e => some e.message

/-- Lets a running machine run for the `dt` seconds since the last tick. -/
def tick (fuel : Nat) (t : Terminal) (dt : Float32) : Option Terminal :=
  (t.debugger.poll fuel dt).map fun (result, debugger) =>
    { t with debugger, output := (pollText? debugger.machine result).getD t.output }

def runCommand (t : Terminal) (c : Command) : Terminal :=
  match t.debugger.perform c with
  | (.ok reply, debugger) =>
    { t with debugger, output := reply.text, last := some c,
             quit := t.quit || reply = .quit }
  | (.error e, debugger) => { t with debugger, output := e.message, last := some c }

/-- Takes the line typed. A blank one repeats the last command; one that does not parse leaves no
last command. -/
def submit (t : Terminal) : Terminal :=
  let line := t.input
  let t := { t with input := "" }
  if line.toList.all CommandLine.isBlank then
    match t.last with
    | some c => t.runCommand c
    | none => t
  else
    match Command.parse line with
    | .ok c => t.runCommand c
    | .error refusal => { t with output := refusal.text, last := none }

/-- A key of a running machine. -/
def onRunningKey (t : Terminal) (code : KeyCode) (now : Nat) : Terminal :=
  match code with
  | .escape => { t with debugger.running := false, output := "Paused" }
  | .char c =>
    match KeypadLayout.ofChar? c with
    | some k =>
      { t with debugger.runner := t.debugger.runner.setKey k true, held := t.held.press k now }
    | none => t
  | _ => t

/-- A key at the prompt. -/
def onPromptKey (t : Terminal) (code : KeyCode) : Terminal :=
  match code with
  | .escape => { t with quit := true }
  | .enter => t.submit
  | .backspace => { t with input := String.ofList t.input.toList.dropLast }
  | .char c => { t with input := t.input.push c }
  | .other => t

def onKey (t : Terminal) (e : KeyEvent) (now : Nat) : Terminal :=
  if e.code = .char 'c' ∧ e.control then { t with quit := true }
  else if e.kind ≠ .press then t
  else if t.debugger.running then t.onRunningKey e.code now
  else t.onPromptKey e.code

/-- Lets go of the keys that have been quiet for too long. -/
def releaseExpired (t : Terminal) (now : Nat) : Terminal :=
  let (expired, held) := t.held.expire now
  let runner := expired.foldl (fun r k => r.setKey k false) t.debugger.runner
  { t with debugger.runner := runner, held }

end Terminal

end Chip8
