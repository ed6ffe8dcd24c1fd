import Chip8.Debugger

/-!
The machines and debuggers that a host can arrive at from a fresh machine. A debugger moves its
machine only by what a host could do to the machine itself.
-/

namespace Chip8

/-- What a host does to a machine. -/
inductive HostAction where
  | step
  | setKey (k : Nibble) (pressed : Bool)
  | tick
  | loadRom (rom : List UInt8)
  | loadFont (font : Font)
  | reset
  | assign (target : SetTarget) (value : UInt16)

namespace Machine

/-- The machine after an action, also one that was refused. -/
def act (m : Machine) : HostAction → Machine
  | .step => m.step.machine
  | .setKey k pressed => m.setKey k pressed
  | .tick => m.tick
  | .loadRom rom =>
    match writeRom rom m with
    | .ok () after => after
    | .error _ after => after
  | .loadFont font => m.loadFont font
  | .reset => m.reset
  | .assign target value =>
    match Debugger.setTarget m target value with
    | .ok after => after
    | .error _ => m

theorem act_loadRom (m : Machine) (rom : List UInt8) :
    m.act (.loadRom rom) = m ∨
    (rom.length ≤ Memory.programCapacity ∧ m.act (.loadRom rom) = { m with
      memory := ⟨overlay m.memory.bytes Memory.programStart rom⟩, rom, pc := programStart }) := by
  rw [act]
  rcases writeRom_cases rom m with ⟨-, h⟩ | ⟨hlen, h⟩ <;> rw [h]
  · exact .inl rfl
  · exact .inr ⟨hlen, rfl⟩

theorem act_assign (m : Machine) (target : SetTarget) (value : UInt16) :
    m.act (.assign target value) = m ∨
      Debugger.setTarget m target value = .ok (m.act (.assign target value)) := by
  rw [act]
  rcases Debugger.setTarget m target value with e | after
  · exact .inl rfl
  · exact .inr rfl

/-- What a host can make of a fresh machine with these settings. -/
inductive Reachable (config : Config) : Machine → Prop
  | build {seed : UInt64} {m : Machine} (h : Machine.build config seed = .ok m) :
      Reachable config m
  | act {m : Machine} (h : Reachable config m) (a : HostAction) : Reachable config (m.act a)

variable {config : Config} {m : Machine}

theorem Reachable.tickN (h : Reachable config m) (n : Nat) : Reachable config (m.tickN n) := by
  induction n generalizing m with
  | zero => exact h
  | succ n ih => exact ih (h.act .tick)

theorem Reachable.spend {period backlog : Float32} {stops : Option Breakpoints} {fuel : Nat}
    {spent : Runner.Spent} (h : Reachable config m)
    (hs : Runner.spend period stops fuel backlog m = some spent) :
    Reachable config spent.machine := by
  induction fuel generalizing backlog m with
  | zero => cases hs
  | succ fuel ih =>
    have hstep : Reachable config m.step.machine := h.act .step
    rw [Runner.spend] at hs
    split at hs
    · dsimp only at hs
      split at hs
      · cases hs
        exact hstep
      · split at hs
        · cases hs
          exact hstep
        · split at hs
          · exact ih hstep hs
          · cases hs
            exact hstep
          · cases hs
            exact hstep
    · cases hs
      exact h

theorem Reachable.stepMachine (h : Reachable config m) (n : Nat) :
    Reachable config (Debugger.stepMachine n m).2 := by
  induction n generalizing m with
  | zero => exact h
  | succ n ih =>
    have hstep : Reachable config m.step.machine := h.act .step
    rw [Debugger.stepMachine]
    split
    · exact hstep
    · exact hstep
    · exact ih hstep
    · exact ih hstep

end Machine

namespace Debugger

/-- What can become of a debugger that starts on a fresh machine: the host acts on the machine,
gives commands and lets time pass, with the debugger's own breakpoints, with others or with none. -/
inductive Reachable (config : Config) : Debugger → Prop
  | start {seed : UInt64} {m : Machine} (h : Machine.build config seed = .ok m) :
      Reachable config (.start m)
  | act {d : Debugger} (h : Reachable config d) (a : HostAction) :
      Reachable config (d.withMachine (d.machine.act a))
  | perform {d : Debugger} (h : Reachable config d) (c : Command) :
      Reachable config (d.perform c).2
  | update {d : Debugger} (h : Reachable config d) {fuel : Nat} {dt : Float32}
      {stops : Breakpoints} {result : Except StepError UpdateOutcome} {runner : Runner}
      (hu : d.runner.update fuel dt stops = some (result, runner)) :
      Reachable config { d with runner }
  | updateFreely {d : Debugger} (h : Reachable config d) {fuel : Nat} {dt : Float32}
      {result : Except StepError UpdateOutcome} {runner : Runner}
      (hu : d.runner.updateFreely fuel dt = some (result, runner)) :
      Reachable config { d with runner }
  | poll {d : Debugger} (h : Reachable config d) {fuel : Nat} {dt : Float32}
      {result : Except StepError UpdateOutcome} {after : Debugger}
      (hp : d.poll fuel dt = some (result, after)) : Reachable config after

end Debugger

variable {config : Config}

theorem Runner.reachable_updateUntil {r r' : Runner} {fuel : Nat} {dt : Float32}
    {stops : Option Breakpoints} {result : Except StepError UpdateOutcome}
    (h : r.machine.Reachable config) (hu : r.updateUntil fuel dt stops = some (result, r')) :
    r'.machine.Reachable config := by
  unfold Runner.updateUntil at hu
  split at hu
  · cases hu
  · split at hu
    · cases hu
    · rename_i hs
      cases hu
      exact (h.tickN _).spend hs

/-- Whatever a debugger does comes to actions on its machine. -/
theorem Debugger.machine_reachable {d : Debugger} (h : d.Reachable config) :
    d.machine.Reachable config := by
  induction h with
  | start h => exact .build h
  | act _ a ih => exact ih.act a
  | @perform d _ c ih =>
    cases c with
    | step count =>
      have hsteps := ih.stepMachine count.toNat
      rw [Debugger.perform]
      split <;> rename_i hs <;> rw [hs] at hsteps <;> exact hsteps
    | breakpoint action => cases action <;> exact ih
    | set target value =>
      have hset := ih.act (.assign target value)
      rw [Machine.act] at hset
      rw [Debugger.perform]
      split <;> rename_i hs <;> rw [hs] at hset <;> exact hset
    | dump start len =>
      rw [Debugger.perform]
      split
      · split <;> exact ih
      · exact ih
    | listing start len =>
      rw [Debugger.perform]
      split
      · split <;> exact ih
      · exact ih
    | reset => exact ih.act .reset
    | run | pause | quit => exact ih
  | update _ hu ih | updateFreely _ hu ih => exact Runner.reachable_updateUntil ih hu
  | @poll d _ fuel dt result after hp ih =>
    rw [Debugger.poll] at hp
    split at hp
    · obtain ⟨⟨result', runner⟩, hu, he⟩ := Option.map_eq_some_iff.mp hp
      cases he
      exact Runner.reachable_updateUntil ih hu
    · cases hp
      exact ih

end Chip8
