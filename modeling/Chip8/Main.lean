import Chip8.Debugger.Screen
import Chip8.Launch

/-!
The debugger at a console that hands over whole lines. The keys of a line are pressed in order, its
end is the Enter key, and time passes between lines.
-/

namespace Chip8.Main

/-- The most periods that a tick makes up for. -/
def fuel : Nat := 16777216

def frameMilliseconds : UInt32 := 16

def columns : Nat := 100

def lines : Nat := 45

def keyOf (c : Char) : KeyCode := if c = '\x1b' then .escape else .char c

/-- The keys of a line with its line break. -/
def keysOf (line : String) : List KeyCode :=
  (line.toList.filter fun c => c ≠ '\n' ∧ c ≠ '\r').map keyOf ++ [.enter]

def pressKeys (t : Terminal) (line : String) (now : Nat) : Terminal :=
  (keysOf line).foldl (fun t code => t.onKey { code } now) t

def seconds (microseconds : Nat) : Float32 := Float32.ofNat microseconds / 1000000

def frame (t : Terminal) : String :=
  "\x1b[H\x1b[2J" ++ "\n".intercalate ((Screen.render t columns lines).map String.join)

def readRom (path : String) : IO (Except FileError (List UInt8)) := do
  try
    return .ok (← IO.FS.readBinFile path).toList
  catch e =>
    return .error (match e with
      | .noFileOrDirectory .. => .notFound
      | .inappropriateType _ 20 _ => .notDirectory
      | .inappropriateType .. => .isDirectory
      | .invalidArgument _ 36 _ => .nameTooLong
      | .permissionDenied .. => .permissionDenied
      | e => .other e.toString)

def randomSeed : IO UInt64 := do
  let bytes ← IO.getRandomBytes 8
  return bytes.toList.foldl (fun seed b => seed <<< 8 ||| b.toUInt64) 0

def now : IO Nat := return (← IO.monoNanosNow) / 1000

def nextLine : BaseIO (Task (Except IO.Error String)) :=
  IO.asTask (do (← IO.getStdin).getLine) .dedicated

/-- Ticks the debugger and draws it where it has changed, until it is told to quit or the input
ends. -/
partial def serve (t : Terminal) (line : Task (Except IO.Error String)) (last : Nat)
    (shown : String) : IO Unit := do
  let time ← now
  let t := ((t.tick fuel (seconds (time - last))).getD t).releaseExpired time
  if frame t ≠ shown then
    IO.println (frame t)
  if ← IO.hasFinished line then
    let text ← IO.ofExcept line.get
    let next := pressKeys t text time
    if !text.isEmpty ∧ !next.quit then
      serve next (← nextLine) time (frame t)
  else
    IO.sleep frameMilliseconds
    serve t line time (frame t)

def debug (m : Machine) : IO Unit := do
  serve (.start m) (← nextLine) (← now) ""

end Chip8.Main

open Chip8

def main (words : List String) : IO UInt32 := do
  match LaunchArguments.parse words with
  | .error refusal =>
    if refusal.error.isHelp then
      IO.print refusal.text
      return 0
    else
      IO.eprint refusal.text
      return 2
  | .ok arguments =>
    match arguments.launch (← Main.readRom arguments.romPath) (← Main.randomSeed) with
    | .ok m =>
      Main.debug m
      return 0
    | .error e =>
      IO.eprintln ("Error: " ++ e.message?.getD "Not enough memory")
      return 1
