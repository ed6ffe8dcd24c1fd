import Chip8.Block
import Chip8.CallStack
import Chip8.Config
import Chip8.Display
import Chip8.Font
import Chip8.Keypad
import Chip8.Memory
import Chip8.RandomStream

/-!
One session of the machine: what it holds, how it is built, loaded and reset, and what its host
does to it between steps. The host owns the clock.
-/

namespace Chip8

abbrev Registers := Vector UInt8 16

@[ext] structure Machine where
  config : Config
  /-- The font and the program that a reset puts back. -/
  font : Font
  rom : List UInt8
  memory : Memory
  display : Display
  /-- The address of the next instruction. -/
  pc : UInt16
  index : UInt16
  /-- V0 to VF; VF doubles as the flag of arithmetic and drawing. -/
  v : Registers
  stack : CallStack
  delayTimer : UInt8
  soundTimer : UInt8
  keypad : Keypad
  /-- The register that a pending wait for a key will set. -/
  awaiting : Option Nibble
  fault : Option Fault
  random : RandomStream

/-- A program that does not fit, with its size. -/
structure RomTooLarge where
  size : Nat
  deriving DecidableEq, Repr

def RomTooLarge.message (e : RomTooLarge) : String :=
  "ROM is too large (" ++ e.size.repr ++ " bytes), max size is " ++ Memory.programCapacity.repr
    ++ " bytes"

inductive BuildError where
  | invalid (reason : ConfigError)
  /-- More stack or display than a host can hold. -/
  | unallocatable
  deriving DecidableEq, Repr

namespace Machine

def zeroRegisters : Registers := Vector.replicate 16 0

def programStart : UInt16 := 0x200

/-- Copies the glyphs to the start of memory. -/
def loadFont (m : Machine) (font : Font) : Machine :=
  { m with font := font, memory := ⟨overlay m.memory.bytes 0 font.toList⟩ }

/-- A machine that has just been switched on, whatever its settings. -/
def powerOn (config : Config) (hostSeed : UInt64) : Machine :=
  loadFont
    { config, font := Font.standard, rom := []
      memory := Memory.zero
      display := Display.blank config.width config.height
      pc := programStart, index := 0, v := zeroRegisters
      stack := CallStack.empty config.stackDepth
      delayTimer := 0, soundTimer := 0
      keypad := Keypad.idle, awaiting := none, fault := none
      random := RandomStream.start (config.seed.getD hostSeed) }
    Font.standard

/-- `hostSeed` seeds the random bytes if the settings do not. A host draws a key of 256 bits for
that; here the key is one of the 2^64 that a 64-bit seed expands to. -/
def build (config : Config) (hostSeed : UInt64) : Except BuildError Machine :=
  match config.validate with
  | .error reason => .error (.invalid reason)
  | .ok () =>
    if config.fitsHost then .ok (powerOn config hostSeed) else .error .unallocatable

/-- Copies a program to its place and points the program counter at it. -/
def writeRom (rom : List UInt8) : EStateM RomTooLarge Machine Unit := do
  if Memory.programCapacity < rom.length then
    throw ⟨rom.length⟩
  modify fun m => { m with memory := ⟨overlay m.memory.bytes Memory.programStart rom⟩ }
  modify fun m => { m with rom }
  modify fun m => { m with pc := programStart }

/-- The machine with a program loaded. -/
def loadRom (m : Machine) (rom : List UInt8) : Except RomTooLarge Machine :=
  match writeRom rom m with
  | .ok () after => .ok after
  | .error refusal _ => .error refusal

/-- Back to the power-on state with the font and the program last loaded. Only the random bytes
go on where they were. -/
def reset (m : Machine) : Machine :=
  { m with
    memory := ⟨overlay (overlay Memory.zero.bytes 0 m.font.toList) Memory.programStart m.rom⟩
    display := m.display.clear
    pc := programStart, index := 0, v := zeroRegisters
    stack := m.stack.clear
    delayTimer := 0, soundTimer := 0
    keypad := Keypad.idle, awaiting := none, fault := none }

private def countDown (t : UInt8) : UInt8 := if t = 0 then 0 else t - 1

/-- One tick of both timers, which stop at zero. -/
def tick (m : Machine) : Machine :=
  { m with delayTimer := countDown m.delayTimer, soundTimer := countDown m.soundTimer }

def tickN : Nat → Machine → Machine
  | 0, m => m
  | n + 1, m => tickN n m.tick

/-- The tone is on while the sound timer runs. -/
def beeping (m : Machine) : Bool := 0 < m.soundTimer

/-- The register that setting key `k` would complete a wait for. -/
def completes (m : Machine) (k : Nibble) (pressed : Bool) : Option Nibble :=
  if m.keypad.isEdge k pressed then m.awaiting else none

/-- Records a key of the host. A key-down edge ends a pending wait. -/
def setKey (m : Machine) (k : Nibble) (pressed : Bool) : Machine :=
  match m.completes k pressed with
  | none => { m with keypad := m.keypad.set k pressed }
  | some r =>
    { m with keypad := m.keypad.set k pressed, v := setAt m.v r k.toByte, awaiting := none }

theorem of_build {config : Config} {hostSeed : UInt64} {m : Machine}
    (h : build config hostSeed = .ok m) :
    config.validate = .ok () ∧ config.fitsHost = true ∧ m = powerOn config hostSeed := by
  unfold build at h
  split at h
  · cases h
  · rename_i hvalid
    split at h
    · rename_i hfits
      exact ⟨hvalid, hfits, (Except.ok.inj h).symm⟩
    · cases h

/-- A program is refused before anything is written. -/
theorem writeRom_cases (rom : List UInt8) (m : Machine) :
    (Memory.programCapacity < rom.length ∧ writeRom rom m = .error ⟨rom.length⟩ m) ∨
    (rom.length ≤ Memory.programCapacity ∧ writeRom rom m = .ok () { m with
      memory := ⟨overlay m.memory.bytes Memory.programStart rom⟩, rom, pc := programStart }) := by
  unfold writeRom
  by_cases h : Memory.programCapacity < rom.length
  · rw [if_pos h]
    exact .inl ⟨h, rfl⟩
  · rw [if_neg h]
    exact .inr ⟨Nat.not_lt.mp h, rfl⟩

theorem setKey_cases (m : Machine) (k : Nibble) (pressed : Bool) :
    m.setKey k pressed = { m with keypad := m.keypad.set k pressed } ∨
    ∃ r, m.awaiting = some r ∧ m.setKey k pressed =
      { m with keypad := m.keypad.set k pressed, v := setAt m.v r k.toByte, awaiting := none } := by
  rw [setKey, completes]
  by_cases hedge : m.keypad.isEdge k pressed
  · rw [if_pos hedge]
    rcases m.awaiting with _ | r
    · exact .inl rfl
    · exact .inr ⟨r, rfl, rfl⟩
  · rw [if_neg hedge]
    exact .inl rfl

variable {m : Machine} {k : Nibble}

theorem setKey_of_not_edge {pressed : Bool} (h : m.keypad.isEdge k pressed = false) :
    m.setKey k pressed = { m with keypad := m.keypad.set k pressed } := by
  rw [setKey, completes, h]
  rfl

/-- With no wait pending a key moves nothing but the keypad. -/
theorem setKey_of_idle (h : m.awaiting = none) (k : Nibble) (pressed : Bool) :
    m.setKey k pressed = { m with keypad := m.keypad.set k pressed } := by
  rcases m.setKey_cases k pressed with hs | ⟨r, hr, -⟩
  · exact hs
  · rw [h] at hr
    cases hr

/-- The key that goes down ends the wait. -/
theorem setKey_of_edge {r : Nibble} (hr : m.awaiting = some r) (h : m.keypad.isDown k = false) :
    m.setKey k true =
      { m with keypad := m.keypad.set k true, v := setAt m.v r k.toByte, awaiting := none } := by
  have hedge : m.keypad.isEdge k true = true := by rw [Keypad.isEdge, h]; rfl
  rw [setKey, completes, hedge, if_pos rfl, hr]

end Machine

end Chip8
