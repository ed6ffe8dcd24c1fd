import Chip8.Proofs.Reachable
import Mathlib.Data.Nat.Bitwise

/-!
The machine and the debugger with their numbers checked as they are made: sums and products fit
their width, differences do not fall below zero, remainders have a divisor, and what is indexed or
copied over is there. An operation that finds it otherwise has no result, not even a fault.
-/

namespace Chip8.Checked

variable {α : Type} {n : Nat}

/-- A sum of numbers of `bits` bits. -/
def sum (bits a b : Nat) : Option Nat := if a + b < 2 ^ bits then some (a + b) else none

def product (bits a b : Nat) : Option Nat := if a * b < 2 ^ bits then some (a * b) else none

def difference (a b : Nat) : Option Nat := if b ≤ a then some (a - b) else none

def remainder (a b : Nat) : Option Nat := if b = 0 then none else some (a % b)

def shiftRight (b : UInt8) (count : Nat) : Option UInt8 :=
  if count < 8 then some (b >>> UInt8.ofNat count) else none

/-- The entries from `start` up to `stop`. -/
def part (v : Vector α n) (start stop : Nat) : Option (List α) :=
  if start ≤ stop ∧ stop ≤ n then some (v.extract start stop).toList else none

/-- Copies `data` over the entries from `start` up to `stop`, which are as many. -/
def copy (v : Vector α n) (start stop : Nat) (data : List α) : Option (Vector α n) :=
  if start ≤ stop ∧ stop ≤ n ∧ data.length = stop - start then some (overlay v start data)
  else none

theorem sum_eq {bits a b : Nat} (h : a + b < 2 ^ bits) : sum bits a b = some (a + b) := if_pos h

theorem product_eq {bits a b : Nat} (h : a * b < 2 ^ bits) : product bits a b = some (a * b) :=
  if_pos h

theorem difference_eq {a b : Nat} (h : b ≤ a) : difference a b = some (a - b) := if_pos h

theorem remainder_eq {a b : Nat} (h : 0 < b) : remainder a b = some (a % b) :=
  if_neg (Nat.ne_of_gt h)

theorem part_eq {v : Vector α n} {start stop : Nat} (h : start ≤ stop) (hstop : stop ≤ n) :
    part v start stop = some (v.extract start stop).toList := if_pos ⟨h, hstop⟩

theorem copy_eq {v : Vector α n} {start stop : Nat} {data : List α}
    (hdata : start + data.length = stop) (hstop : stop ≤ n) :
    copy v start stop data = some (overlay v start data) := if_pos (by omega)

def readWord (m : Memory) (a : Nat) : Option (Except Fault UInt16) :=
  match m.read a with
  | .error cause => some (.error cause)
  | .ok high => do
    let second ← sum 64 a 1
    match m.read second with
    | .error cause => return .error cause
    | .ok low => return .ok (high.toUInt16 <<< 8 ||| low.toUInt16)

/-- An address past the end is refused before anything is added to it. -/
def checkRange (a len : Nat) : Option (Except Fault Unit) :=
  if 4096 < a then some (.error (.memoryOutOfBounds (max a 4096)))
  else do
    let stop ← sum 64 a len
    if 4096 < stop then return .error (.memoryOutOfBounds (max a 4096))
    else return .ok ()

def slice (m : Memory) (a len : Nat) : Option (Except Fault (List UInt8)) := do
  match ← checkRange a len with
  | .error cause => return .error cause
  | .ok () =>
    let stop ← sum 64 a len
    let block ← part m.bytes a stop
    return .ok block

/-- Lays `data` over the `len` bytes from `a` on. -/
def splice (m : Memory) (a len : Nat) (data : List UInt8) : Option (Except Fault Memory) := do
  match ← checkRange a len with
  | .error cause => return .error cause
  | .ok () =>
    let stop ← sum 64 a len
    let bytes ← copy m.bytes a stop data
    return .ok ⟨bytes⟩

def visibleRows (d : Display) (y count : Nat) : Option Nat := do
  let top ← remainder y d.height
  let room ← difference d.height top
  return min count room

/-- Column `col` of a sprite row: the display so far, and whether a lit cell was put out. -/
def drawCell (left top row : Nat) (bits : UInt8) (drawn : Display × Bool) (col : Nat) :
    Option (Display × Bool) := do
  let mask ← shiftRight 0x80 col
  if bits &&& mask = 0 then return drawn
  else
    let y ← sum 64 top row
    let line ← product 64 y drawn.1.width
    let corner ← sum 64 line left
    let i ← sum 64 corner col
    if h : i < drawn.1.width * drawn.1.height then
      let lit := drawn.1.cells[i]
      return ({ drawn.1 with cells := drawn.1.cells.set i (!lit) }, drawn.2 || lit)
    else none

def drawRows (left top cols : Nat) :
    Nat → List UInt8 → Display × Bool → Option (Display × Bool)
  | _, [], drawn => some drawn
  | row, bits :: sprite, drawn => do
    let drawn ← (List.range cols).foldlM (drawCell left top row bits) drawn
    drawRows left top cols (row + 1) sprite drawn

/-- Draws row by row and column by column, as far as the screen goes. -/
def draw (d : Display) (x y : Nat) (sprite : List UInt8) : Option (Display × Bool) := do
  let left ← remainder x d.width
  let top ← remainder y d.height
  let rows ← difference d.height top
  let cols ← difference d.width left
  drawRows left top (min 8 cols) 0 (sprite.take (min sprite.length rows)) (d, false)

/-- Instructions whose numbers cannot go wrong are executed as they are. -/
def execute (m : Machine) : Instruction → Option (EStateM.Result Fault Machine Outcome)
  | .draw x y n => do
    let rows ← visibleRows m.display (m.v.get y).toNat n.val
    match ← slice m.memory m.index.toNat rows with
    | .error cause => return .error cause m
    | .ok sprite =>
      let drawn ← draw m.display (m.v.get x).toNat (m.v.get y).toNat sprite
      return .ok .drew ({ m with display := drawn.1 }.setFlag drawn.2)
  | .jumpOffset nnn => do
    let pc ← sum 16 nnn.val (m.v.get 0).toNat
    return .ok .advanced { m with pc := UInt16.ofNat pc }
  | .addIndex x =>
    match sum 16 m.index.toNat (m.v.get x).toNat with
    | some index => some (.ok .advanced { m with index := UInt16.ofNat index })
    -- This sum may be too large for the register, but not for an address.
    | none => do
      let address ← sum 64 m.index.toNat (m.v.get x).toNat
      return .error (.memoryOutOfBounds address) m
  | .loadGlyph x => do
    let index ← product 64 (m.v.get x).toNat Font.glyphSize
    return .ok .advanced { m with index := UInt16.ofNat index }
  | .storeDecimal x => do
    match ← splice m.memory m.index.toNat 3 (Machine.decimalDigits (m.v.get x)) with
    | .error cause => return .error cause m
    | .ok memory => return .ok .advanced { m with memory }
  | .saveRegisters x => do
    let stop ← sum 64 x.val 1
    let registers ← part m.v 0 stop
    match ← splice m.memory m.index.toNat registers.length registers with
    | .error cause => return .error cause m
    | .ok memory => return .ok .advanced { m with memory }
  | .restoreRegisters x => do
    let len ← sum 64 x.val 1
    match ← slice m.memory m.index.toNat len with
    | .error cause => return .error cause m
    | .ok block =>
      let v ← copy m.v 0 len block
      return .ok .advanced { m with v }
  | i => some (i.execute m)

def next (m : Machine) : Option (EStateM.Result Fault Machine Outcome) := do
  match ← readWord m.memory m.pc.toNat with
  | .error cause => return .error cause m
  | .ok word => execute m.pastFetch (.decode word)

def step (m : Machine) : Option Machine.Step :=
  match m.fault with
  | some _ => some ⟨.error .halted, m⟩
  | none =>
    match m.awaiting with
    | some r => some ⟨.ok (.waiting r), m⟩
    | none => do
      match ← next m with
      | .ok outcome after => return ⟨.ok outcome, after⟩
      | .error cause after =>
        return ⟨.error (.fault cause), { after with pc := m.pc, fault := some cause }⟩

def loadFont (m : Machine) (font : Font) : Option Machine := do
  let bytes ← copy m.memory.bytes 0 80 font.toList
  return { m with font, memory := ⟨bytes⟩ }

def writeRom (rom : List UInt8) (m : Machine) :
    Option (EStateM.Result RomTooLarge Machine Unit) :=
  if Memory.programCapacity < rom.length then some (.error ⟨rom.length⟩ m)
  else do
    match ← splice m.memory Memory.programStart rom.length rom with
    -- The size has been checked, so there is nothing to refuse.
    | .error _ => none
    | .ok memory => return .ok () { m with memory, rom, pc := Machine.programStart }

def reset (m : Machine) : Option Machine := do
  let cleared ← loadFont
    { m with
      memory := Memory.zero, display := m.display.clear
      pc := Machine.programStart, index := 0, v := Machine.zeroRegisters
      stack := m.stack.clear, delayTimer := 0, soundTimer := 0
      keypad := Keypad.idle, awaiting := none, fault := none } m.font
  let stop ← sum 64 Memory.programStart m.rom.length
  let bytes ← copy cleared.memory.bytes Memory.programStart stop m.rom
  return { cleared with memory := ⟨bytes⟩ }

def act (m : Machine) : HostAction → Option Machine
  | .step => do
    let s ← step m
    return s.machine
  | .loadRom rom => do
    match ← writeRom rom m with
    | .ok () after => return after
    | .error _ after => return after
  | .loadFont font => loadFont m font
  | .reset => reset m
  | a => some (m.act a)

def stepMachine : Nat → Machine → Option (Except StepError Unit × Machine)
  | 0, m => some (.ok (), m)
  | n + 1, m => do
    let s ← step m
    match s.result with
    | .error e => return (.error e, s.machine)
    | .ok (.waiting _) => return (.ok (), s.machine)
    | .ok .advanced | .ok .drew => stepMachine n s.machine

def listWords (m : Memory) : Nat → UInt16 → Option (List ListedWord)
  | 0, _ => some []
  | n + 1, a => do
    match ← readWord m a.toNat with
    | .ok word =>
      let lines ← listWords m n (a + 2)
      return ⟨a, word, .decode word⟩ :: lines
    | .error _ => return []

def perform (d : Debugger) : Command → Option (Except CommandError Reply × Debugger)
  | .step count => do
    match ← stepMachine count.toNat d.machine with
    | (.ok (), m) => return (.ok .done, d.withMachine m)
    | (.error e, m) => return (.error (.stepFailed e), d.withMachine m)
  | .dump start len =>
    if start.toNat < Memory.size then do
      let room ← difference Memory.size start.toNat
      match ← slice d.machine.memory start.toNat (min len.toNat room) with
      | .ok data => return (.ok (.dump data start), d)
      | .error cause => return (.error (.stepFailed (.fault cause)), d)
    else some (.error .valueOutOfRange, d)
  | .listing start len => do
    match ← listWords d.machine.memory len.toNat (start.getD d.machine.pc) with
    | [] => return if len = 0 then (.ok (.listing []), d) else (.error .valueOutOfRange, d)
    | lines => return (.ok (.listing lines), d)
  | .reset => do
    let m ← reset d.machine
    return (.ok .done, { d.withMachine m with running := false })
  | c => some (d.perform c)

end Chip8.Checked
