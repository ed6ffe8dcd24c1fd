import Chip8.Hex

/-!
Faults: what a program can do wrong. The first one of a session is latched, and the machine
refuses to go on until it is reset.
-/

namespace Chip8

inductive Fault where
  | memoryOutOfBounds (address : Nat)
  | stackUnderflow
  | stackOverflow (depth : Nat)
  | unknownOpcode (word : UInt16)
  deriving DecidableEq, Repr

namespace Fault

def message : Fault → String
  | memoryOutOfBounds address =>
      "Memory access out of bounds at address " ++ Hex.marked 4 address
  | stackUnderflow =>
      "Stack underflow: attempted to return from a subroutine with empty call stack"
  | stackOverflow depth => "Stack overflow: call depth exceeded " ++ depth.repr
  | unknownOpcode word => "Unknown opcode: " ++ Hex.marked 4 word.toNat

end Fault

/-- Why a step was refused: it faulted, or an earlier one did. -/
inductive StepError where
  | fault (cause : Fault)
  | halted
  deriving DecidableEq, Repr

def StepError.message : StepError → String
  | fault cause => cause.message
  | halted => "Interpreter halted after a previous fault"

end Chip8
