import Chip8.Proofs.Periods
import Chip8.Proofs.Spending

/-!
What time a call leaves over. Ticks never leave a period over, and neither do steps when a call ends
well, so that a call for no time at all does nothing after it. A step that fails ends the call with
the time of the steps that were still to come, and the next call makes them, also when the machine
has been reset in between.
-/

namespace Chip8.Runner

open Single

/-- The runners that come of a fresh one by calls. Between them the host may put any machine in the
place of the machine. -/
inductive Reachable : Runner → Prop
  | start {m : Machine} (h : m.config.validate = .ok ()) : Reachable (start m)
  | host {r : Runner} (h : Reachable r) (m : Machine) : Reachable { r with machine := m }
  | update {r after : Runner} {fuel : Nat} {dt : Float32} {stops : Option Breakpoints}
      {result : Except StepError UpdateOutcome} (h : Reachable r) (hdt : dt.isFinite = true)
      (hu : r.updateUntil fuel dt stops = some (result, after)) : Reachable after

/-- Periods of some length, and backlogs that are numbers. -/
structure Timed (r : Runner) : Prop where
  cpuPeriod : ∃ n, Amounts r.cpuPeriod n ∧ 0 < n
  timerPeriod : ∃ n, Amounts r.timerPeriod n ∧ 0 < n
  cpuBacklog : r.cpuBacklog.isNaN = false
  timerBacklog : r.timerBacklog.isNaN = false

/-- A backlog after this many periods have come off it. -/
def less (period : Float32) : Nat → Float32 → Float32
  | 0, backlog => backlog
  | n + 1, backlog => less period n (backlog - period)

variable {period backlog left dt : Float32} {stops : Option Breakpoints} {fuel ticks : Nat}
  {m : Machine} {met : List Machine} {spent : Spent} {r after : Runner}
  {result : Except StepError UpdateOutcome}

theorem Elapses.not_le_left (h : Elapses period backlog ticks left) : ¬period ≤ left := by
  induction h with
  | done hp => exact hp
  | tick _ _ ih => exact ih

theorem Elapses.isNaN_left (h : Elapses period backlog ticks left) (hp : period.isFinite = true)
    (hb : backlog.isNaN = false) : left.isNaN = false := by
  induction h with
  | done => exact hb
  | tick _ _ ih => exact ih (isNaN_sub_time hb hp)

theorem Spends.isNaN_backlog (h : Spends period stops backlog m met spent)
    (hp : period.isFinite = true) (hb : backlog.isNaN = false) : spent.backlog.isNaN = false := by
  induction h with
  | timeUp => exact hb
  | last _ he =>
    cases he with
    | failed => exact isNaN_sub_time hb hp
    | stopped | drew | waits => exact amounts_zero.isNaN
  | goesOn _ _ _ ih => exact ih (isNaN_sub_time hb hp)

/-- A call that fails has made a step, and leaves the time that its steps have not used. -/
theorem Spends.backlog_of_error {e : StepError} (h : Spends period stops backlog m met spent)
    (hr : spent.result = .error e) : met ≠ [] ∧ spent.backlog = less period met.length backlog := by
  induction h with
  | timeUp => cases hr
  | last _ he =>
    cases he with
    | failed => exact ⟨List.cons_ne_nil _ _, rfl⟩
    | stopped | drew | waits => cases hr
  | goesOn _ _ _ ih => exact ⟨List.cons_ne_nil _ _, (ih hr).2⟩

theorem Spends.not_le_backlog (h : Spends period stops backlog m met spent)
    (hzero : ¬period ≤ 0) (hr : ∀ e, spent.result ≠ .error e) : ¬period ≤ spent.backlog := by
  induction h with
  | timeUp hp => exact hp
  | last _ he =>
    cases he with
    | failed => exact absurd rfl (hr _)
    | stopped | drew | waits => exact hzero
  | goesOn _ _ _ ih => exact ih hr

theorem Spends.ne_nil_iff (h : Spends period stops backlog m met spent) :
    met ≠ [] ↔ period ≤ backlog := by
  cases h with
  | timeUp hp => simp [hp]
  | last hp | goesOn hp => simp [hp]

theorem timed_start (h : m.config.validate = .ok ()) : Timed (start m) := by
  obtain ⟨hcpu, htimer⟩ := Config.rates_of_validate h
  obtain ⟨n, hn, hlarge⟩ := exists_amounts_period hcpu
  obtain ⟨n', hn', hlarge'⟩ := exists_amounts_period htimer
  exact ⟨⟨n, hn, Nat.lt_of_lt_of_le (by decide) hlarge⟩,
    ⟨n', hn', Nat.lt_of_lt_of_le (by decide) hlarge'⟩, amounts_zero.isNaN,
    amounts_zero.isNaN⟩

theorem Timed.updates (h : Timed r) (hdt : dt.isFinite = true)
    (hu : Updates r dt stops ticks met result after) : Timed after := by
  obtain ⟨n, hn, -⟩ := h.cpuPeriod
  obtain ⟨n', hn', -⟩ := h.timerPeriod
  constructor
  · rw [hu.cpuPeriod_eq]
    exact h.cpuPeriod
  · rw [hu.timerPeriod_eq]
    exact h.timerPeriod
  · exact hu.spends.isNaN_backlog hn.isFinite (isNaN_add_time h.cpuBacklog hdt)
  · exact hu.elapses.isNaN_left hn'.isFinite (isNaN_add_time h.timerBacklog hdt)

theorem Reachable.timed (h : Reachable r) : Timed r := by
  induction h with
  | start h => exact timed_start h
  | host _ _ ih => exact ⟨ih.cpuPeriod, ih.timerPeriod, ih.cpuBacklog, ih.timerBacklog⟩
  | update _ hdt hu ih =>
    obtain ⟨ticks, met, hupdates⟩ := updates_of_updateUntil hu
    exact ih.updates hdt hupdates

/-- A call for no time, when neither backlog holds a period. -/
theorem updateUntil_zero (ht : ¬r.timerPeriod ≤ r.timerBacklog) (hc : ¬r.cpuPeriod ≤ r.cpuBacklog)
    (fuel : Nat) (stops : Option Breakpoints) : r.updateUntil (fuel + 1) 0 stops =
      some (.ok .completed,
        { r with cpuBacklog := r.cpuBacklog + 0, timerBacklog := r.timerBacklog + 0 }) := by
  have ht' := mt (le_add_zero _ _).mp ht
  have hc' := mt (le_add_zero _ _).mp hc
  simp only [updateUntil, wholePeriods, spend, if_neg ht', if_neg hc']
  rfl

/-- After a call that returns, less than a timer period is left, and a call for no time makes no
tick, whatever machine it finds. If the call ended well, less than an instruction period is left
too, and a call for no time does nothing. If it failed, the time of the steps that it did not come
to is left, and a call for no time makes a step just if that is a period or more. -/
theorem leftover (hr : Reachable r) (hdt : dt.isFinite = true)
    (h : r.updateUntil fuel dt stops = some (result, after)) :
    after.timerBacklog < after.timerPeriod ∧
    ((∀ e, result ≠ .error e) → after.cpuBacklog < after.cpuPeriod ∧
      ∀ m fuel' stops', { after with machine := m }.updateUntil (fuel' + 1) 0 stops' =
        some (.ok .completed, { after with
          machine := m
          cpuBacklog := after.cpuBacklog + 0, timerBacklog := after.timerBacklog + 0 })) ∧
    (∀ e, result = .error e → ∃ ticks met, met ≠ [] ∧ Updates r dt stops ticks met result after ∧
      after.cpuBacklog = less r.cpuPeriod met.length (r.cpuBacklog + dt)) ∧
    ∀ m fuel' stops' result' after',
      { after with machine := m }.updateUntil fuel' 0 stops' = some (result', after') →
        ∃ met, Updates { after with machine := m } 0 stops' 0 met result' after' ∧
          (met ≠ [] ↔ after.cpuPeriod ≤ after.cpuBacklog) := by
  obtain ⟨ticks, met, hupdates⟩ := updates_of_updateUntil h
  have htimed := hr.timed.updates hdt hupdates
  obtain ⟨n, hn, hpos⟩ := htimed.cpuPeriod
  obtain ⟨n', hn', -⟩ := htimed.timerPeriod
  have htimer : ¬after.timerPeriod ≤ after.timerBacklog := by
    rw [hupdates.timerPeriod_eq]
    exact hupdates.elapses.not_le_left
  refine ⟨hn'.lt_of_not_le htimer htimed.timerBacklog, fun hend => ?_, fun e he => ?_, ?_⟩
  · have hzero : ¬after.cpuPeriod ≤ 0 := by
      rw [hn.le_iff amounts_zero]
      omega
    have hcpu : ¬after.cpuPeriod ≤ after.cpuBacklog := by
      rw [hupdates.cpuPeriod_eq] at hzero ⊢
      exact hupdates.spends.not_le_backlog hzero hend
    exact ⟨hn.lt_of_not_le hcpu htimed.cpuBacklog,
      fun m => updateUntil_zero (r := { after with machine := m }) htimer hcpu⟩
  · obtain ⟨hmet, hleft⟩ := hupdates.spends.backlog_of_error he
    exact ⟨ticks, met, hmet, hupdates, hleft⟩
  · intro m fuel' stops' result' after' h'
    obtain ⟨ticks', met', hupdates'⟩ := updates_of_updateUntil h'
    have hdone := Elapses.done (mt (le_add_zero _ _).mp htimer)
    obtain ⟨rfl, -⟩ := hupdates'.elapses.unique hdone
    exact ⟨met', hupdates', hupdates'.spends.ne_nil_iff.trans (le_add_zero _ _)⟩

/-- A breakpoint ends a call with time to spare, and a call for no time does not use it. -/
theorem leftover_settingRegisters :
    ∃ after, settingRegisters.updateUntil 20 0.15 (some (Breakpoints.none.insert 0x204)) =
        some (.ok .hitBreakpoint, after) ∧ after.cpuBacklog < after.cpuPeriod ∧
      ∃ idle, { after with machine := after.machine.reset }.updateUntil 20 0 none =
        some (.ok .completed, idle) ∧ idle.machine = after.machine.reset := by
  have hreturns : (settingRegisters.updateUntil 20 0.15 (some (Breakpoints.none.insert 0x204))).map
      Prod.fst = some (.ok .hitBreakpoint) := by decide +kernel
  obtain ⟨⟨result, after⟩, hcall, rfl⟩ := Option.map_eq_some_iff.mp hreturns
  obtain ⟨-, hends, -⟩ := leftover (.start rfl) (by decide +kernel) hcall
  obtain ⟨hcpu, hidle⟩ := hends nofun
  exact ⟨after, hcall, hcpu, _, hidle after.machine.reset 19 none, rfl⟩

/-- A machine that is about to return without having been called. -/
def returning : Machine := (Machine.powerOn {} 0).act (.loadRom [0x00, 0xEE])

/-- A failed call leaves time over, and a call for no time uses it on the machine that was reset. -/
theorem leftover_used_after_reset :
    Reachable (start returning) ∧
      ∃ after again, (start returning).updateUntil 40 0.5 none =
          some (.error (.fault .stackUnderflow), after) ∧
        ¬after.cpuBacklog < after.cpuPeriod ∧ after.machine.reset.fault = none ∧
        { after with machine := after.machine.reset }.updateUntil 40 0 none =
          some (.error (.fault .stackUnderflow), again) ∧
        again.machine.fault = some .stackUnderflow := by
  have hcalls : (((start returning).updateUntil 40 0.5 none).bind fun call =>
      (({ call.2 with machine := call.2.machine.reset } : Runner).updateUntil 40 0 none).map
        fun call' => (call.1, decide (call.2.cpuBacklog < call.2.cpuPeriod), call'.1,
          call'.2.machine.fault)) =
      some (.error (.fault .stackUnderflow), false, .error (.fault .stackUnderflow),
        some .stackUnderflow) := by decide +kernel
  obtain ⟨⟨result, after⟩, hcall, hcalls⟩ := Option.bind_eq_some_iff.mp hcalls
  obtain ⟨⟨result', again⟩, hcall', heq⟩ := Option.map_eq_some_iff.mp hcalls
  simp only [Prod.mk.injEq] at heq
  obtain ⟨rfl, hleft, rfl, hfault⟩ := heq
  exact ⟨.start rfl, after, again, hcall, of_decide_eq_false hleft, rfl, hcall', hfault⟩

end Chip8.Runner
