import Chip8.Instruction
import Chip8.Machine

/-!
One step: fetch, decode, execute. An instruction works on the machine in place, and what it has
written when a fault stops it stays written. The step then moves the program counter back to the
instruction and latches the fault.
-/

namespace Chip8

inductive Outcome where
  | advanced
  /-- The display changed; a host may end its frame here. -/
  | drew
  /-- Suspended until a key goes down. -/
  | waiting (register : Nibble)
  deriving DecidableEq, Repr

/-- Work on a machine that a fault can stop. -/
abbrev Execution := EStateM Fault Machine

namespace Machine

/-- The word at the program counter. -/
def nextWord (m : Machine) : Except Fault UInt16 := m.memory.readWord m.pc.toNat

/-- The machine with the program counter past the instruction it stood at. -/
def pastFetch (m : Machine) : Machine := { m with pc := m.pc + 2 }

def setRegister (m : Machine) (x : Nibble) (b : UInt8) : Machine := { m with v := setAt m.v x b }

def setFlag (m : Machine) (on : Bool) : Machine := m.setRegister 0xF (if on then 1 else 0)

def skipIf (m : Machine) (condition : Bool) : Machine :=
  if condition then { m with pc := m.pc + 2 } else m

/-- A register above 15 names no key, and then none is down. -/
def keyInRegister (m : Machine) (x : Nibble) : Bool :=
  match Nibble.ofByte? (m.v.get x) with
  | some k => m.keypad.isDown k
  | none => false

/-- The hundreds, tens and units of a byte. -/
def decimalDigits (b : UInt8) : List UInt8 := [b / 100, b / 10 % 10, b % 10]

/-- The sprite rows of a draw that land on the screen. The others are not read. -/
def spriteRows (m : Machine) (y n : Nibble) : Except Fault (List UInt8) :=
  m.memory.slice m.index.toNat (m.display.visibleRows (m.v.get y).toNat n.val)

end Machine

namespace Execution

/-- Reads the word at the program counter and moves past it. -/
def fetch : Execution UInt16 := do
  let word ← ofExcept (← get).nextWord
  modify Machine.pastFetch
  return word

/-- Changes the machine and goes on. -/
def advance (change : Machine → Machine) : Execution Outcome := do
  modify change
  return .advanced

def pushCall (a : UInt16) : Execution Unit := do
  let stack ← ofExcept ((← get).stack.push a)
  modify fun m => { m with stack }

def popCall : Execution UInt16 := do
  let (a, stack) ← ofExcept (← get).stack.pop
  modify fun m => { m with stack }
  return a

def randomByte : Execution UInt8 := do
  let byte := (← get).random.peek
  modify fun m => { m with random := m.random.advance }
  return byte

/-- Lays `data` over memory from the index register on. -/
def writeAtIndex (data : List UInt8) : Execution Unit := do
  let m ← get
  let memory ← ofExcept (m.memory.splice m.index.toNat data)
  modify fun m => { m with memory }

end Execution

open Execution in
/-- Executes an instruction, with the program counter already past it. -/
def Instruction.execute : Instruction → Execution Outcome
  | .clearScreen => do
    modify fun m => { m with display := m.display.clear }
    return .drew
  | .draw x y n => do
    let m ← get
    let sprite ← ofExcept (m.spriteRows y n)
    let (display, collided) := m.display.draw (m.v.get x).toNat (m.v.get y).toNat sprite
    modify fun m => { m with display }
    modify fun m => m.setFlag collided
    return .drew
  | .awaitKey x => do
    modify fun m => { m with awaiting := some x }
    return .waiting x
  | .jump nnn => advance fun m => { m with pc := UInt16.ofNat nnn.val }
  | .jumpOffset nnn =>
    advance fun m => { m with pc := UInt16.ofNat (nnn.val + (m.v.get 0).toNat) }
  | .call nnn => do
    pushCall (← get).pc
    advance fun m => { m with pc := UInt16.ofNat nnn.val }
  | .ret => do
    let a ← popCall
    advance fun m => { m with pc := a }
  | .skipEqByte x nn => advance fun m => m.skipIf (m.v.get x = nn)
  | .skipNeByte x nn => advance fun m => m.skipIf (m.v.get x ≠ nn)
  | .skipEqRegister x y => advance fun m => m.skipIf (m.v.get x = m.v.get y)
  | .skipNeRegister x y => advance fun m => m.skipIf (m.v.get x ≠ m.v.get y)
  | .skipKeyDown x => advance fun m => m.skipIf (m.keyInRegister x)
  | .skipKeyUp x => advance fun m => m.skipIf (!m.keyInRegister x)
  | .loadByte x nn => advance fun m => m.setRegister x nn
  | .addByte x nn => advance fun m => m.setRegister x (m.v.get x + nn)
  | .alu x y op => do
    let m ← get
    let result := op.eval (m.v.get x) (m.v.get y)
    modify fun m => m.setRegister x result.value
    -- After Vx, so that the flag is what remains in VF when `x` is F.
    if let some flag := result.flag then
      modify fun m => m.setFlag flag
    return .advanced
  | .random x nn => do
    let byte ← randomByte
    advance fun m => m.setRegister x (byte &&& nn)
  | .loadIndex nnn => advance fun m => { m with index := UInt16.ofNat nnn.val }
  | .addIndex x => do
    let m ← get
    let sum := m.index.toNat + (m.v.get x).toNat
    if 0x10000 ≤ sum then
      throw (.memoryOutOfBounds sum)
    advance fun m => { m with index := UInt16.ofNat sum }
  | .loadGlyph x =>
    advance fun m => { m with index := UInt16.ofNat ((m.v.get x).toNat * Font.glyphSize) }
  | .readDelay x => advance fun m => m.setRegister x m.delayTimer
  | .setDelay x => advance fun m => { m with delayTimer := m.v.get x }
  | .setSound x => advance fun m => { m with soundTimer := m.v.get x }
  | .storeDecimal x => do
    writeAtIndex (Machine.decimalDigits ((← get).v.get x))
    return .advanced
  | .saveRegisters x => do
    writeAtIndex ((← get).v.toList.take (x.val + 1))
    return .advanced
  | .restoreRegisters x => do
    let m ← get
    let block ← ofExcept (m.memory.slice m.index.toNat (x.val + 1))
    advance fun m => { m with v := overlay m.v 0 block }
  | .unknown word => do
    match (← get).config.unknownOpcodes with
    | .fault => throw (.unknownOpcode word)
    | .ignore => return .advanced

/-- Fetches and executes the instruction at the program counter. -/
def Execution.next : Execution Outcome := do
  let word ← fetch
  (Instruction.decode word).execute

namespace Machine

structure Step where
  result : Except StepError Outcome
  machine : Machine

/-- A latched fault refuses every step, and a pending wait lets none do anything. -/
def step (m : Machine) : Step :=
  match m.fault with
  | some _ => ⟨.error .halted, m⟩
  | none =>
    match m.awaiting with
    | some r => ⟨.ok (.waiting r), m⟩
    | none =>
      match Execution.next m with
      | .ok outcome after => ⟨.ok outcome, after⟩
      | .error cause after =>
        ⟨.error (.fault cause), { after with pc := m.pc, fault := some cause }⟩

end Machine

end Chip8
