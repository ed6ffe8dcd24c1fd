import Chip8.Debugger.Command
import Chip8.Instruction
import Chip8.Runner

/-!
A runner under the control of commands: it runs or is paused, and it has breakpoints.
-/

namespace Chip8

structure Debugger where
  runner : Runner
  running : Bool
  breakpoints : Breakpoints

/-- An instruction word where it stands, and what it says. -/
structure ListedWord where
  address : UInt16
  word : UInt16
  instruction : Instruction
  deriving DecidableEq, Repr

inductive Reply where
  | done
  | breakpoints (addresses : List UInt16)
  | dump (data : List UInt8) (offset : UInt16)
  | listing (lines : List ListedWord)
  | quit
  deriving DecidableEq, Repr

inductive CommandError where
  | stepFailed (cause : StepError)
  | valueOutOfRange
  deriving DecidableEq, Repr

def CommandError.message : CommandError → String
  | stepFailed cause => "Error while executing cpu instruction: " ++ cause.message
  | valueOutOfRange => "Value out of range"

namespace Debugger

def start (m : Machine) : Debugger := ⟨.start m, false, .none⟩

def machine (d : Debugger) : Machine := d.runner.machine

def withMachine (d : Debugger) (m : Machine) : Debugger :=
  { d with runner := { d.runner with machine := m } }

/-- Lets a running machine run for `dt` seconds. A fault or a breakpoint pauses it. -/
def poll (fuel : Nat) (d : Debugger) (dt : Float32) :
    Option (Except StepError UpdateOutcome × Debugger) :=
  if d.running then
    (d.runner.update fuel dt d.breakpoints).map fun (result, runner) =>
      let running := match result with
        | .ok .completed | .ok .waitingForKey => true
        | .ok .hitBreakpoint | .error _ => false
      (result, { d with runner, running })
  else some (.ok .completed, d)

/-- Up to `count` steps. A key wait ends them early. -/
def stepMachine : Nat → Machine → Except StepError Unit × Machine
  | 0, m => (.ok (), m)
  | n + 1, m =>
    let s := m.step
    match s.result with
    | .error e => (.error e, s.machine)
    | .ok (.waiting _) => (.ok (), s.machine)
    | .ok .advanced | .ok .drew => stepMachine n s.machine

/-- Writes one field. Registers and timers take a byte, the program counter an address inside
memory. -/
def setTarget (m : Machine) (target : SetTarget) (value : UInt16) : Except CommandError Machine :=
  let byte : Except CommandError UInt8 :=
    if value.toNat < 0x100 then .ok value.toUInt8 else .error .valueOutOfRange
  match target with
  | .register x => byte.map fun b => { m with v := setAt m.v x b }
  | .index => .ok { m with index := value }
  | .pc => if value.toNat < Memory.size then .ok { m with pc := value } else .error .valueOutOfRange
  | .delayTimer => byte.map fun b => { m with delayTimer := b }
  | .soundTimer => byte.map fun b => { m with soundTimer := b }

/-- Words from `a` on, two bytes apart, up to the first that does not lie in memory. -/
def listWords (m : Memory) : Nat → UInt16 → List ListedWord
  | 0, _ => []
  | n + 1, a =>
    match m.readWord a.toNat with
    | .ok word => ⟨a, word, .decode word⟩ :: listWords m n (a + 2)
    | .error _ => []

/-- What a command answers, and the debugger after it. A command that fails changes nothing but
what its steps did before. -/
def perform (d : Debugger) : Command → Except CommandError Reply × Debugger
  | .run => (.ok .done, { d with running := true })
  | .pause => (.ok .done, { d with running := false })
  | .step count =>
    match stepMachine count.toNat d.machine with
    | (.ok (), m) => (.ok .done, d.withMachine m)
    | (.error e, m) => (.error (.stepFailed e), d.withMachine m)
  | .breakpoint (.set a) => (.ok .done, { d with breakpoints := d.breakpoints.insert a })
  | .breakpoint (.clear a) => (.ok .done, { d with breakpoints := d.breakpoints.erase a })
  | .breakpoint .list => (.ok (.breakpoints d.breakpoints.addresses), d)
  | .breakpoint .clearAll => (.ok .done, { d with breakpoints := .none })
  | .set target value =>
    match setTarget d.machine target value with
    | .ok m => (.ok .done, d.withMachine m)
    | .error e => (.error e, d)
  | .dump start len =>
    if start.toNat < Memory.size then
      match d.machine.memory.slice start.toNat (min len.toNat (Memory.size - start.toNat)) with
      | .ok data => (.ok (.dump data start), d)
      | .error cause => (.error (.stepFailed (.fault cause)), d)
    else (.error .valueOutOfRange, d)
  | .listing start len =>
    match listWords d.machine.memory len.toNat (start.getD d.machine.pc) with
    | [] => if len = 0 then (.ok (.listing []), d) else (.error .valueOutOfRange, d)
    | lines => (.ok (.listing lines), d)
  | .reset => (.ok .done, { d.withMachine d.machine.reset with running := false })
  | .quit => (.ok .quit, d)

/-- Only registers, timers and the program counter can be written, and the counter only inside
memory. -/
theorem of_setTarget {m after : Machine} {target : SetTarget} {value : UInt16}
    (h : setTarget m target value = .ok after) :
    (after.pc = m.pc ∨ after.pc.toNat < Memory.size) ∧
      after = { m with
        pc := after.pc, index := after.index, v := after.v
        delayTimer := after.delayTimer, soundTimer := after.soundTimer } := by
  cases target with
  | register x | delayTimer | soundTimer =>
    unfold setTarget at h
    split at h <;> cases h
    exact ⟨.inl rfl, rfl⟩
  | index =>
    cases h
    exact ⟨.inl rfl, rfl⟩
  | pc =>
    unfold setTarget at h
    dsimp only at h
    split at h <;> cases h
    rename_i hvalue
    exact ⟨.inr hvalue, rfl⟩

end Debugger

end Chip8
