import Chip8.Nibble

/-!
What can be asked of the debugger.
-/

namespace Chip8

inductive SetTarget where
  | register (x : Nibble)
  | index
  | pc
  | delayTimer
  | soundTimer
  deriving DecidableEq, Repr

inductive BreakpointAction where
  | set (address : UInt16)
  | clear (address : UInt16)
  | list
  | clearAll
  deriving DecidableEq, Repr

inductive Command where
  | run
  | pause
  | step (count : UInt16)
  | breakpoint (action : BreakpointAction)
  | set (target : SetTarget) (value : UInt16)
  | dump (start len : UInt16)
  /-- Without a start, from the program counter. -/
  | listing (start : Option UInt16) (len : UInt16)
  | reset
  | quit
  deriving DecidableEq, Repr

end Chip8
