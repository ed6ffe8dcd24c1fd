import Chip8.Breakpoints
import Chip8.Machine.Step

/-!
A machine driven by the frame clock of a host. Elapsed time goes into two backlogs, one for the
timers and one for instructions, and a period is taken off a backlog for each tick or step.

A backlog so large that a period is lost in its rounding never shrinks, and then catching up has no
end. So catching up takes `fuel`, an upper bound on the periods of either kind, and answers `none`
when that was not enough.
-/

namespace Chip8

structure Runner where
  machine : Machine
  /-- In seconds. -/
  cpuPeriod : Float32
  timerPeriod : Float32
  /-- Time not yet spent on instructions. -/
  cpuBacklog : Float32
  /-- Time not yet spent on ticks. -/
  timerBacklog : Float32

/-- How a call ended that met no fault. -/
inductive UpdateOutcome where
  /-- The time was used up, or a draw ended the frame. -/
  | completed
  | waitingForKey
  /-- A step left the program counter on a breakpoint. -/
  | hitBreakpoint
  deriving DecidableEq, Repr

namespace Runner

def start (m : Machine) : Runner :=
  { machine := m
    cpuPeriod := 1 / m.config.cpuHz, timerPeriod := 1 / m.config.timerHz
    cpuBacklog := 0, timerBacklog := 0 }

@[simp] theorem timerPeriod_start (m : Machine) :
    (start m).timerPeriod = 1 / m.config.timerHz := rfl

@[simp] theorem timerBacklog_start (m : Machine) : (start m).timerBacklog = 0 := rfl

/-- The whole periods in a backlog, added to `count`, and the rest. -/
def wholePeriods (period : Float32) : Nat → Nat → Float32 → Option (Nat × Float32)
  | 0, _, _ => none
  | fuel + 1, count, backlog =>
    if period ≤ backlog then wholePeriods period fuel (count + 1) (backlog - period)
    else some (count, backlog)

/-- Whether a program counter is to end the call. Without a set of breakpoints none is. -/
def stopsAt (stops : Option Breakpoints) (pc : UInt16) : Bool := stops.any (·.contains pc)

structure Spent where
  result : Except StepError UpdateOutcome
  backlog : Float32
  machine : Machine

/-- Steps for as long as the backlog holds a period. The time left is dropped when the machine
draws, waits or meets a breakpoint, so that it is not replayed in the next frame. -/
def spend (period : Float32) (stops : Option Breakpoints) :
    Nat → Float32 → Machine → Option Spent
  | 0, _, _ => none
  | fuel + 1, backlog, m =>
    if period ≤ backlog then
      let s := m.step
      match s.result with
      | .error e => some ⟨.error e, backlog - period, s.machine⟩
      | .ok outcome =>
        if stopsAt stops s.machine.pc then some ⟨.ok .hitBreakpoint, 0, s.machine⟩
        else match outcome with
          | .advanced => spend period stops fuel (backlog - period) s.machine
          | .drew => some ⟨.ok .completed, 0, s.machine⟩
          | .waiting _ => some ⟨.ok .waitingForKey, 0, s.machine⟩
    else some ⟨.ok .completed, backlog, m⟩

/-- Spends `dt` seconds: the timers first, so that they decay while the machine waits. -/
def updateUntil (fuel : Nat) (r : Runner) (dt : Float32) (stops : Option Breakpoints) :
    Option (Except StepError UpdateOutcome × Runner) :=
  match wholePeriods r.timerPeriod fuel 0 (r.timerBacklog + dt) with
  | none => none
  | some (ticks, timerBacklog) =>
    match spend r.cpuPeriod stops fuel (r.cpuBacklog + dt) (r.machine.tickN ticks) with
    | none => none
    | some spent =>
      some (spent.result,
        { r with machine := spent.machine, cpuBacklog := spent.backlog, timerBacklog })

/-- Spends `dt` seconds, or less if a step comes to a breakpoint. -/
def update (fuel : Nat) (r : Runner) (dt : Float32) (stops : Breakpoints) :
    Option (Except StepError UpdateOutcome × Runner) :=
  r.updateUntil fuel dt (some stops)

/-- Spends `dt` seconds with no breakpoints to look out for. -/
def updateFreely (fuel : Nat) (r : Runner) (dt : Float32) :
    Option (Except StepError UpdateOutcome × Runner) :=
  r.updateUntil fuel dt none

def setKey (r : Runner) (k : Nibble) (pressed : Bool) : Runner :=
  { r with machine := r.machine.setKey k pressed }

end Runner

end Chip8
