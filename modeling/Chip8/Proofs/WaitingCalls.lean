import Chip8.Proofs.Stopping

/-!
Calls of the runner while the machine waits for a key. They execute nothing and let the timers run.
A step that only waits is still followed by a look at the breakpoints, so a call can answer that it
met one although the program counter has not moved, and a debugger that was told to run pauses.
-/

namespace Chip8

/-- Ticks move the timers and nothing else. -/
theorem Machine.tickN_eq (n : Nat) (m : Machine) :
    ∃ delay sound, m.tickN n = { m with delayTimer := delay, soundTimer := sound } := by
  induction n generalizing m with
  | zero => exact ⟨_, _, rfl⟩
  | succ n ih =>
    obtain ⟨delay, sound, h⟩ := ih m.tick
    exact ⟨delay, sound, h⟩

namespace Runner

/-- What a call answers that finds the machine waiting at `pc`. -/
def idleOutcome (stops : Option Breakpoints) (pc : UInt16) (elapsed : Bool) : UpdateOutcome :=
  if !elapsed then .completed
  else if stopsAt stops pc then .hitBreakpoint
  else .waitingForKey

variable {r after : Runner} {m : Machine} {x : Nibble} {period backlog dt : Float32}
  {stops : Option Breakpoints} {ticks : Nat} {left : Float32}
  {result : Except StepError UpdateOutcome}

/-- The first step of a waiting machine ends the call. -/
theorem exists_spends_of_waiting (period backlog : Float32) (stops : Option Breakpoints)
    (hf : m.fault = none) (hw : m.awaiting = some x) :
    ∃ met, Spends period stops backlog m met
      ⟨.ok (idleOutcome stops m.pc (period ≤ backlog)),
        if period ≤ backlog then 0 else backlog, m⟩ := by
  have hstep := Machine.step_of_awaiting hf hw
  have hresult : m.step.result = .ok (.waiting x) := by rw [hstep]
  have hmachine : m.step.machine = m := by rw [hstep]
  unfold idleOutcome
  by_cases hp : period ≤ backlog
  · refine ⟨[m], ?_⟩
    rw [decide_eq_true hp, if_pos hp]
    cases hb : stopsAt stops m.pc with
    | true =>
      have hends : Ends stops m.step (backlog - period) (.ok .hitBreakpoint) 0 :=
        .stopped hresult (by rw [hmachine, hb])
      have hspends := Spends.last hp hends
      rwa [hmachine] at hspends
    | false =>
      have hends : Ends stops m.step (backlog - period) (.ok .waitingForKey) 0 :=
        .waits hresult (by rw [hmachine, hb])
      have hspends := Spends.last hp hends
      rwa [hmachine] at hspends
  · refine ⟨[], ?_⟩
    rw [decide_eq_false hp, if_neg hp]
    exact .timeUp hp

/-- The runner after a call that finds its machine waiting. -/
def afterWaiting (r : Runner) (dt : Float32) (ticks : Nat) (left : Float32) : Runner :=
  { r with
    machine := r.machine.acts (List.replicate ticks .tick)
    cpuBacklog := if r.cpuPeriod ≤ r.cpuBacklog + dt then 0 else r.cpuBacklog + dt
    timerBacklog := left }

theorem exists_updates_of_waiting (stops : Option Breakpoints) (hf : r.machine.fault = none)
    (hw : r.machine.awaiting = some x)
    (helapses : Elapses r.timerPeriod (r.timerBacklog + dt) ticks left) :
    ∃ met, r.Updates dt stops ticks met
      (.ok (idleOutcome stops r.machine.pc (r.cpuPeriod ≤ r.cpuBacklog + dt)))
      (r.afterWaiting dt ticks left) := by
  obtain ⟨delay, sound, hticked⟩ := r.machine.tickN_eq ticks
  have hf' : (r.machine.tickN ticks).fault = none := by rw [hticked]; exact hf
  have hw' : (r.machine.tickN ticks).awaiting = some x := by rw [hticked]; exact hw
  obtain ⟨met, hspends⟩ :=
    exists_spends_of_waiting r.cpuPeriod (r.cpuBacklog + dt) stops hf' hw'
  rw [pc_tickN] at hspends
  refine ⟨met, helapses, ?_, rfl, rfl⟩
  rw [afterWaiting, acts_replicate_tick]
  exact hspends

/-- A call that finds the machine waiting returns once its ticks have come to an end. -/
theorem updateUntil_of_waiting (hf : r.machine.fault = none) (hw : r.machine.awaiting = some x) :
    (∃ fuel, r.updateUntil fuel dt stops = some (result, after)) ↔
      ∃ ticks left, Elapses r.timerPeriod (r.timerBacklog + dt) ticks left ∧
        after = r.afterWaiting dt ticks left ∧
        result = .ok (idleOutcome stops r.machine.pc (r.cpuPeriod ≤ r.cpuBacklog + dt)) := by
  constructor
  · rintro ⟨fuel, h⟩
    obtain ⟨ticks, met, hupdates⟩ := updates_of_updateUntil h
    have helapses := hupdates.elapses
    obtain ⟨met', hwaits⟩ := exists_updates_of_waiting stops hf hw helapses
    -- The steps of a call follow from the machine and the backlog, so these are the same.
    obtain ⟨-, hspent⟩ := hupdates.spends.unique hwaits.spends
    obtain ⟨hresult, hcpu, hmachine⟩ := Spent.mk.inj hspent
    refine ⟨ticks, after.timerBacklog, helapses, ?_, hresult⟩
    have hperiods := hupdates.cpuPeriod_eq
    have hperiods' := hupdates.timerPeriod_eq
    cases after
    cases hmachine
    cases hcpu
    cases hperiods
    cases hperiods'
    rfl
  · rintro ⟨ticks, left, helapses, rfl, rfl⟩
    obtain ⟨met, hupdates⟩ := exists_updates_of_waiting stops hf hw helapses
    exact exists_updateUntil_iff.mpr ⟨ticks, met, hupdates⟩

theorem hitBreakpoint_iff {pc : UInt16} {elapsed : Bool} :
    idleOutcome stops pc elapsed = .hitBreakpoint ↔ elapsed = true ∧ stopsAt stops pc = true := by
  unfold idleOutcome
  cases elapsed <;> cases stopsAt stops pc <;> simp

/-- A call that finds the machine waiting executes nothing, whatever the time and the breakpoints.
It makes its ticks, and it answers that the machine waits if the period of an instruction has
passed and the program counter stands on no breakpoint. If it stands on one, the call answers that
it met it. That is also what pauses a debugger, and nothing else does. The key is still awaited. -/
theorem waiting_executes_nothing (hf : r.machine.fault = none) (hw : r.machine.awaiting = some x) :
    (∀ dt stops result after, (∃ fuel, r.updateUntil fuel dt stops = some (result, after)) ↔
      ∃ ticks left, Elapses r.timerPeriod (r.timerBacklog + dt) ticks left ∧
        after = r.afterWaiting dt ticks left ∧
        result = .ok (idleOutcome stops r.machine.pc (r.cpuPeriod ≤ r.cpuBacklog + dt))) ∧
    ∀ d : Debugger, d.runner = r → d.running = true →
      ∀ fuel dt result after, d.poll fuel dt = some (result, after) →
        (after.running = false ↔
          r.cpuPeriod ≤ r.cpuBacklog + dt ∧ d.breakpoints.contains r.machine.pc = true) ∧
        after.machine.awaiting = some x ∧
        ∀ k, r.machine.keypad.isDown k = false →
          (after.runner.setKey k true).machine.awaiting = none := by
  refine ⟨fun dt stops result after => updateUntil_of_waiting hf hw, ?_⟩
  rintro d rfl hrunning fuel dt result after hpoll
  have hpauses := Debugger.running_eq_false_iff hrunning hpoll
  rcases Debugger.poll_cases hpoll with ⟨-, hupdate, -, -⟩ | ⟨hpaused, -, -⟩
  · obtain ⟨ticks, left, -, hafter, rfl⟩ := (updateUntil_of_waiting hf hw).mp ⟨fuel, hupdate⟩
    have hmachine : after.machine = d.runner.machine.tickN ticks := by
      change after.runner.machine = _
      rw [hafter, afterWaiting, acts_replicate_tick]
    obtain ⟨delay, sound, hticked⟩ := d.runner.machine.tickN_eq ticks
    have hawaits : after.machine.awaiting = some x := by rw [hmachine, hticked]; exact hw
    have hpad : after.machine.keypad = d.runner.machine.keypad := by rw [hmachine, hticked]
    refine ⟨?_, hawaits, fun k hk => ?_⟩
    · rw [hpauses, Except.ok.injEq, hitBreakpoint_iff, decide_eq_true_iff]
      simp [stopsAt]
    · have hpressed := Machine.setKey_of_edge (k := k) hawaits (by rw [hpad]; exact hk)
      change (after.machine.setKey k true).awaiting = none
      rw [hpressed]
  · cases hpaused.symm.trans hrunning

/-- A machine that has asked for a key and then loops. -/
def asking : Machine :=
  (Machine.powerOn { cpuHz := 100, timerHz := 10 } 0).acts
    [.loadRom [0xF0, 0x0A, 0x12, 0x02], .step]

/-- A debugger that runs it and has one breakpoint. -/
def askingWithBreakpoint (a : UInt16) : Debugger :=
  { Debugger.start asking with running := true, breakpoints := Breakpoints.none.insert a }

theorem asking_waits : asking.fault = none ∧ asking.awaiting = some 0 ∧ asking.pc = 0x202 ∧
    ∀ k, asking.keypad.isDown k = false := by
  decide +kernel

/-- With a breakpoint elsewhere the debugger runs on, and any key ends the wait. -/
theorem waiting_executes_nothing_breakpointElsewhere :
    ∃ after, (askingWithBreakpoint 0x204).poll 20 0.05 = some (.ok .waitingForKey, after) ∧
      after.running = true ∧ ∀ k, (after.runner.setKey k true).machine.awaiting = none := by
  obtain ⟨hf, hw, hpc, hup⟩ := asking_waits
  have hreturns : ((askingWithBreakpoint 0x204).poll 20 0.05).map Prod.fst =
      some (.ok .waitingForKey) := by decide +kernel
  obtain ⟨⟨result, after⟩, hpoll, rfl⟩ := Option.map_eq_some_iff.mp hreturns
  obtain ⟨hpauses, -, hkey⟩ := (waiting_executes_nothing (r := (askingWithBreakpoint 0x204).runner)
    hf hw).2 _ rfl rfl 20 0.05 _ after hpoll
  refine ⟨after, hpoll, ?_, fun k => hkey k (hup k)⟩
  rw [← Bool.not_eq_false, hpauses]
  rintro ⟨-, hstops⟩
  change (Breakpoints.none.insert 0x204).contains asking.pc = true at hstops
  rw [hpc] at hstops
  revert hstops
  decide

/-- With a breakpoint where it waits, the machine executes nothing and the debugger pauses. -/
theorem waiting_meets_breakpoint :
    asking.Reachable { cpuHz := 100, timerHz := 10 } ∧ asking.awaiting = some 0 ∧
      ∃ after, (askingWithBreakpoint 0x202).poll 20 0.05 = some (.ok .hitBreakpoint, after) ∧
        after.running = false ∧ after.machine.pc = asking.pc ∧
        after.machine.awaiting = some 0 := by
  have hreturns : ((askingWithBreakpoint 0x202).poll 20 0.05).map (fun call =>
      (call.1, call.2.running, call.2.machine.pc, call.2.machine.awaiting)) =
        some (.ok .hitBreakpoint, false, 0x202, some 0) := by decide +kernel
  obtain ⟨⟨result, after⟩, hpoll, heq⟩ := Option.map_eq_some_iff.mp hreturns
  simp only [Prod.mk.injEq] at heq
  obtain ⟨rfl, hpaused, hpc, hawaits⟩ := heq
  have hbuild : Machine.build { cpuHz := 100, timerHz := 10 } 0 =
      .ok (Machine.powerOn { cpuHz := 100, timerHz := 10 } 0) := rfl
  refine ⟨(Machine.Reachable.build hbuild).acts _, asking_waits.2.1, after, hpoll, hpaused, ?_,
    hawaits⟩
  rw [hpc, asking_waits.2.2.1]

end Runner

end Chip8
