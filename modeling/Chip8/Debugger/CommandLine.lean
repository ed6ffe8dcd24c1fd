import Chip8.CommandLine.Menu
import Chip8.CommandLine.Number
import Chip8.CommandLine.Words
import Chip8.Debugger.Command

/-!
Debugger commands as they are typed.
-/

namespace Chip8

open CommandLine

/-- Case does not matter. A register is `v` and a hexadecimal number. -/
def SetTarget.read (text : List Char) : Except String SetTarget :=
  match text.map Char.toLower with
  | ['i'] | ['i', 'n', 'd', 'e', 'x'] => .ok .index
  | ['p', 'c'] => .ok .pc
  | ['d', 't'] | ['d', 'e', 'l', 'a', 'y'] => .ok .delayTimer
  | ['s', 't'] | ['s', 'o', 'u', 'n', 'd'] => .ok .soundTimer
  | 'v' :: digits =>
    match readNat 16 15 digits with
    | .ok x => .ok (.register (.low x))
    | .error _ => .error ("Invalid register: '" ++ String.ofList text ++ "'")
  | _ => .error ("Unknown set target: '" ++ String.ofList text ++ "'")

namespace Command

def readNumber (text : List Char) : Except String UInt16 :=
  (readWord text).mapError NumberError.message

private def plain (names : List String) (about : String) (c : Command) : Menu Command :=
  .command names ((Form.mk about [] [] []).action () fun () => some c)

structure StepArguments where
  count : UInt16 := 1

def stepForm : Form StepArguments where
  about := "Execute one or more instructions"
  positionals :=
    [{ slot := { name := "COUNT", default? := some "1",
                 store := reading readNumber fun n a => { a with count := n } } }]

structure AddressArguments where
  address : Option UInt16 := none

def addressForm : Form AddressArguments where
  positionals :=
    [{ required := true,
       slot := { name := "ADDR",
                 store := reading readNumber fun n a => { a with address := some n } } }]

private def onAddress (names : List String) (act : UInt16 → BreakpointAction) : Menu Command :=
  .command names
    (addressForm.action {} fun a => a.address.map fun n => .breakpoint (act n))

structure SetArguments where
  target : Option SetTarget := none
  value : Option UInt16 := none

def setForm : Form SetArguments where
  about := "Write a register, I, PC or a timer"
  positionals :=
    [ { required := true,
        slot := { name := "TARGET",
                  store := reading SetTarget.read fun t a => { a with target := some t } } },
      { required := true,
        slot := { name := "VALUE",
                  store := reading readNumber fun n a => { a with value := some n } } } ]

structure DumpArguments where
  start : UInt16 := 0x200
  len : UInt16 := 64

def dumpForm : Form DumpArguments where
  about := "Hex dump of memory"
  positionals :=
    [ { slot := { name := "START", default? := some "0x200",
                  store := reading readNumber fun n a => { a with start := n } } },
      { slot := { name := "LEN", default? := some "64",
                  store := reading readNumber fun n a => { a with len := n } } } ]

structure ListingArguments where
  start : Option UInt16 := none
  len : UInt16 := 16

def listingForm : Form ListingArguments where
  about := "Disassemble instructions, starting at PC by default"
  positionals :=
    [ { slot := { name := "START",
                  store := reading readNumber fun n a => { a with start := some n } } },
      { slot := { name := "LEN", default? := some "16",
                  store := reading readNumber fun n a => { a with len := n } } } ]

/-- Every command with the names it answers to. -/
def menu : List (Menu Command) :=
  [ plain ["run", "r"] "" .run,
    plain ["pause", "p"] "" .pause,
    .command ["step", "s"] (stepForm.action {} fun a => some (.step a.count)),
    .group ["breakpoint", "b"]
      [ onAddress ["set", "s"] .set,
        onAddress ["clear", "c"] .clear,
        plain ["list", "l"] "" (.breakpoint .list),
        plain ["clear-all", "ca"] "" (.breakpoint .clearAll) ],
    .command ["set"] (setForm.action {} fun a =>
      match a.target, a.value with
      | some t, some n => some (.set t n)
      | _, _ => none),
    .command ["mem", "m"] (dumpForm.action {} fun a => some (.dump a.start a.len)),
    .command ["disasm", "d"] (listingForm.action {} fun a => some (.listing a.start a.len)),
    plain ["reset"] "Restart the loaded ROM from power-on state" .reset,
    plain ["quit", "q"] "" .quit ]

/-- A file name without its last extension. A dot at its start begins none. -/
def stem (name : List Char) : List Char :=
  match name.reverse.span (· ≠ '.') with
  | (_, _ :: c :: before) => (c :: before).reverse
  | _ => name

def pathParts (path : List Char) : List (List Char) :=
  ((path.splitOn '/').filter fun part => part ≠ [] ∧ part ≠ ['.'])

/-- The last part of a path, unless it leads upwards. -/
def fileName? (path : List Char) : Option (List Char) :=
  match (pathParts path).getLast? with
  | none | some ['.', '.'] => none
  | some name => some name

def programName : String := "chip8"

/-- The command word may be written as a path, and is then the stem of the file it names. A word
that names no file stands for the program, and the word after it is the name of the program. -/
def parseWords : List (List Char) → Except Refusal Command
  | [] => Menu.parse menu programName []
  | w :: ws =>
    match fileName? w with
    | some name => Menu.parse menu "" ((stem name :: ws).map String.ofList)
    | none =>
      let program := ((ws.head?.bind fileName?).map String.ofList).getD programName
      Menu.parse menu program ((ws.drop 1).map String.ofList)

def parse (line : String) : Except Refusal Command := parseWords (words line.toList)

theorem toOption_parse {line : String} {c : Command} :
    (parse line).toOption = some c ↔ parse line = .ok c := by
  cases parse line <;> simp [Except.toOption]

end Command

end Chip8
