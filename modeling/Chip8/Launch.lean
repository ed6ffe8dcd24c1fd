import Chip8.CommandLine.Decimal
import Chip8.CommandLine.Form
import Chip8.CommandLine.Number
import Chip8.Machine

/-!
Starting a program: its arguments, the settings they stand for, and the machine with the ROM file
loaded.
-/

namespace Chip8

open CommandLine

structure LaunchOptions where
  cpuHz : Float32 := 700
  stackDepth : Nat := 16
  ignoreUnknown : Bool := false
  seed : Option UInt64 := none
  /-- Screen pixels per display cell, for a program with a window. -/
  scale : UInt32 := 10

structure LaunchArguments where
  romPath : String
  options : LaunchOptions

namespace LaunchArguments

/-- The arguments as far as they have been read. -/
structure Draft where
  romPath : Option String := none
  options : LaunchOptions := {}

private def readRate (text : List Char) : Except String Float32 :=
  match readFloat text with
  | .error e => .error e.message
  | .ok hz =>
    if rateInRange hz then .ok hz else .error "rate must be between 0.01 and 1000000 Hz"

private def read64 (text : List Char) : Except String Nat :=
  (readNat 10 (UInt64.size - 1) text).mapError NumberError.message

private def readScale (text : List Char) : Except String UInt32 :=
  match readInt (UInt64.size / 2) text with
  | .error e => .error e.message
  | .ok n =>
    if 0 ≤ n ∧ n < UInt32.size then .ok (UInt32.ofNat n.toNat)
    else .error (n.repr ++ " is not in 0..=4294967295")

private def setOption {α : Type} (set : α → LaunchOptions → LaunchOptions) (a : α) (d : Draft) :
    Draft :=
  { d with options := set a d.options }

/-- The arguments of a program without a window. -/
def form : Form Draft where
  about := "Terminal debugger for CHIP-8 ROMs"
  positionals :=
    [{ required := true,
       slot := { name := "ROM_PATH", about := "Path to the CHIP-8 ROM file",
                 store := nonempty fun path d => { d with romPath := some path } } }]
  options :=
    [ { name := "cpu-hz",
        slot := { name := "CPU_HZ", about := "Instructions executed per second",
                  default? := some "700",
                  store := reading readRate (setOption fun hz o => { o with cpuHz := hz }) } },
      { name := "stack-depth",
        slot := { name := "STACK_DEPTH", about := "Maximum subroutine call depth",
                  default? := some "16",
                  store := reading read64 (setOption fun n o => { o with stackDepth := n }) } },
      { name := "seed",
        slot := { name := "SEED", about := "Seed for the random number instruction",
                  store := reading read64
                    (setOption fun n o => { o with seed := some (UInt64.ofNat n) }) } } ]
  switches :=
    [{ name := "ignore-unknown-opcodes", about := "Skip unknown opcodes instead of halting",
       turnOn := fun d => { d with options.ignoreUnknown := true } }]

/-- The arguments of a program with a window. -/
def windowForm : Form Draft where
  about := "CHIP-8 emulator window"
  positionals := form.positionals
  options :=
    form.options ++
      [{ name := "scale",
         slot := { name := "SCALE", about := "Window pixels per CHIP-8 pixel",
                   default? := some "10",
                   store := reading readScale (setOption fun n o => { o with scale := n }) } }]
  switches := form.switches

private def finish (d : Draft) : Option LaunchArguments :=
  d.romPath.map fun path => ⟨path, d.options⟩

private theorem rateInRange_of_readRate {text : List Char} {hz : Float32}
    (h : readRate text = .ok hz) : rateInRange hz = true := by
  unfold readRate at h
  split at h
  · cases h
  · split at h <;> cases h
    assumption

/-- The rate is looked at before it is stored, and the other options leave it as it is. -/
theorem rateInRange_of_store {o : NamedOption Draft} (ho : o ∈ windowForm.options) {text : String}
    {d after : Draft} (h : o.slot.store text d = .ok after)
    (hd : rateInRange d.options.cpuHz = true) : rateInRange after.options.cpuHz = true := by
  simp only [windowForm, form, List.cons_append, List.nil_append, List.mem_cons, List.not_mem_nil,
    or_false] at ho
  rcases ho with rfl | rfl | rfl | rfl
  · unfold reading at h
    dsimp only at h
    split at h <;> cases h
    rename_i hread
    exact rateInRange_of_readRate hread
  all_goals
    unfold reading at h
    dsimp only at h
    split at h <;> cases h
    exact hd

def parse (words : List String) : Except Refusal LaunchArguments :=
  form.parse {} finish "chip8" words

def parseWithWindow (words : List String) : Except Refusal LaunchArguments :=
  windowForm.parse {} finish "chip8" words

def config (a : LaunchArguments) : Config where
  stackDepth := a.options.stackDepth
  unknownOpcodes := if a.options.ignoreUnknown then .ignore else .fault
  cpuHz := a.options.cpuHz
  seed := a.options.seed

end LaunchArguments

/-- Why a file could not be read. -/
inductive FileError where
  | notFound
  | isDirectory
  /-- A path leads through a file as if it were a directory. -/
  | notDirectory
  | nameTooLong
  | permissionDenied
  /-- A path holds the character that ends it for the system. -/
  | nulInPath
  | other (text : String)
  deriving DecidableEq, Repr

def FileError.message : FileError → String
  | notFound => "No such file or directory (os error 2)"
  | isDirectory => "Is a directory (os error 21)"
  | notDirectory => "Not a directory (os error 20)"
  | nameTooLong => "File name too long (os error 36)"
  | permissionDenied => "Permission denied (os error 13)"
  | nulInPath => "file name contained an unexpected NUL byte"
  | other text => text

inductive LaunchError where
  | unreadable (path : String) (cause : FileError)
  | notBuilt (cause : BuildError)
  | notLoaded (cause : RomTooLarge)
  deriving DecidableEq, Repr

/-- The message, if there is one: a machine that no host can hold leaves none. -/
def LaunchError.message? : LaunchError → Option String
  | unreadable path cause =>
    some ("Failed to read ROM file " ++ path ++ ": " ++ cause.message)
  | notBuilt (.invalid reason) => some ("Invalid machine configuration: " ++ reason.message)
  | notBuilt .unallocatable => none
  | notLoaded cause => some ("Failed to load ROM into CHIP-8 memory: " ++ cause.message)

/-- The machine for what reading the ROM file came to. -/
def LaunchArguments.launch (a : LaunchArguments) (file : Except FileError (List UInt8))
    (hostSeed : UInt64) : Except LaunchError Machine :=
  match file with
  | .error cause => .error (.unreadable a.romPath cause)
  | .ok rom =>
    match Machine.build a.config hostSeed with
    | .error cause => .error (.notBuilt cause)
    | .ok m => (m.loadRom rom).mapError .notLoaded

end Chip8
