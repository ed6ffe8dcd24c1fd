import Chip8.Instruction.Listing
import Chip8.Machine.Step

/-!
What a session writes to its log. Every record follows from the machine before an operation and
the operation, so the machine itself keeps no log.
-/

namespace Chip8

inductive LogLevel where
  | error
  | warn
  | debug
  | trace
  deriving DecidableEq, Repr

structure LogRecord where
  level : LogLevel
  text : String
  deriving DecidableEq, Repr

namespace Machine

def fontRecord : LogRecord := ⟨.debug, "Loaded font at " ++ Hex.marked 3 0⟩

def romRecord (rom : List UInt8) : LogRecord :=
  ⟨.debug, "Loaded " ++ rom.length.repr ++ " byte ROM at " ++ Hex.marked 3 Memory.programStart⟩

/-- A program that does not fit leaves no record. -/
def romRecords (rom : List UInt8) : List LogRecord :=
  if rom.length ≤ Memory.programCapacity then [romRecord rom] else []

def resetRecords : List LogRecord := [fontRecord, ⟨.debug, "Reset interpreter"⟩]

private def instructionRecord (pc word : UInt16) : LogRecord :=
  ⟨.trace, Hex.text 3 pc.toNat ++ ": " ++ Hex.text 4 word.toNat ++ " "
    ++ (Instruction.decode word).text⟩

private def ignoredRecords (m : Machine) (word : UInt16) : List LogRecord :=
  match Instruction.decode word, m.config.unknownOpcodes with
  | .unknown _, .ignore =>
    [⟨.warn, "Ignoring unknown opcode " ++ Hex.marked 4 word.toNat ++ " at "
      ++ Hex.marked 3 m.pc.toNat⟩]
  | _, _ => []

private def fetchRecords (m : Machine) : List LogRecord :=
  match m.nextWord with
  | .ok word => instructionRecord m.pc word :: ignoredRecords m word
  | .error _ => []

private def faultRecords (m : Machine) : List LogRecord :=
  match Execution.next m with
  | .ok .. => []
  | .error cause _ =>
    [⟨.error, "Fault at " ++ Hex.marked 3 m.pc.toNat ++ ": " ++ cause.message⟩]

/-- A halted or waiting machine steps in silence. -/
def stepRecords (m : Machine) : List LogRecord :=
  match m.fault, m.awaiting with
  | none, none => fetchRecords m ++ faultRecords m
  | _, _ => []

/-- The records of the steps that `run` makes. -/
def runRecords : Nat → Machine → List LogRecord
  | 0, _ => []
  | n + 1, m =>
    let s := m.step
    m.stepRecords ++ match s.result with
      | .error _ => []
      | .ok _ => runRecords n s.machine

def keyRecords (m : Machine) (k : Nibble) (pressed : Bool) : List LogRecord :=
  match m.completes k pressed with
  | some r => [⟨.trace, "Key " ++ k.text ++ " resumed wait into V" ++ r.text⟩]
  | none => []

end Machine

end Chip8
