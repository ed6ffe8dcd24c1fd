import Chip8.Machine.Run
import Chip8.Proofs.History

/-!
How a call of the runner spends its time. `Updates` has the ticks and the steps of a call as its two
loops make them, and a call returns just what it says. The machine is ticked and then stepped, and
nothing else happens to it. The last step alone tells how the call ends, and the time alone tells
how often it ticks.
-/

namespace Chip8.Runner

open Machine (Step)

/-- A period comes off the backlog for each tick, until less than one is left. -/
inductive Elapses (period : Float32) : Float32 → Nat → Float32 → Prop
  | done {backlog : Float32} (h : ¬period ≤ backlog) : Elapses period backlog 0 backlog
  | tick {backlog left : Float32} {ticks : Nat} (h : period ≤ backlog)
      (rest : Elapses period (backlog - period) ticks left) :
      Elapses period backlog (ticks + 1) left

/-- A step after which the call makes another one if there is time. -/
def GoesOn (stops : Option Breakpoints) (s : Step) : Prop :=
  s.result = .ok .advanced ∧ stopsAt stops s.machine.pc = false

/-- A step that ends the call, with the result of the call and what becomes of the backlog. -/
inductive Ends (stops : Option Breakpoints) (s : Step) (backlog : Float32) :
    Except StepError UpdateOutcome → Float32 → Prop
  | failed {e : StepError} (hs : s.result = .error e) : Ends stops s backlog (.error e) backlog
  | stopped {o : Outcome} (hs : s.result = .ok o) (hb : stopsAt stops s.machine.pc = true) :
      Ends stops s backlog (.ok .hitBreakpoint) 0
  | drew (hs : s.result = .ok .drew) (hb : stopsAt stops s.machine.pc = false) :
      Ends stops s backlog (.ok .completed) 0
  | waits {x : Nibble} (hs : s.result = .ok (.waiting x))
      (hb : stopsAt stops s.machine.pc = false) : Ends stops s backlog (.ok .waitingForKey) 0

/-- A period comes off the backlog for each step, until less than one is left or a step ends the
call. The list has the machines that are stepped. -/
inductive Spends (period : Float32) (stops : Option Breakpoints) :
    Float32 → Machine → List Machine → Spent → Prop
  | timeUp {backlog : Float32} {m : Machine} (h : ¬period ≤ backlog) :
      Spends period stops backlog m [] ⟨.ok .completed, backlog, m⟩
  | last {backlog left : Float32} {m : Machine} {result : Except StepError UpdateOutcome}
      (h : period ≤ backlog) (he : Ends stops m.step (backlog - period) result left) :
      Spends period stops backlog m [m] ⟨result, left, m.step.machine⟩
  | goesOn {backlog : Float32} {m : Machine} {met : List Machine} {spent : Spent}
      (h : period ≤ backlog) (hs : GoesOn stops m.step)
      (rest : Spends period stops (backlog - period) m.step.machine met spent) :
      Spends period stops backlog m (m :: met) spent

/-- A call that makes these ticks and then steps these machines. -/
structure Updates (r : Runner) (dt : Float32) (stops : Option Breakpoints) (ticks : Nat)
    (met : List Machine) (result : Except StepError UpdateOutcome) (after : Runner) : Prop where
  elapses : Elapses r.timerPeriod (r.timerBacklog + dt) ticks after.timerBacklog
  spends : Spends r.cpuPeriod stops (r.cpuBacklog + dt) (r.machine.tickN ticks) met
    ⟨result, after.cpuBacklog, after.machine⟩
  cpuPeriod_eq : after.cpuPeriod = r.cpuPeriod
  timerPeriod_eq : after.timerPeriod = r.timerPeriod

variable {period backlog left dt : Float32} {stops : Option Breakpoints} {fuel ticks : Nat}
  {m : Machine} {met : List Machine} {spent : Spent} {s : Step} {r after : Runner}
  {result : Except StepError UpdateOutcome}

theorem elapses_of_wholePeriods {count total : Nat}
    (h : wholePeriods period fuel count backlog = some (total, left)) :
    ∃ ticks, total = count + ticks ∧ Elapses period backlog ticks left := by
  induction fuel generalizing count backlog with
  | zero => cases h
  | succ fuel ih =>
    rw [wholePeriods] at h
    split at h
    · rename_i hp
      obtain ⟨ticks, rfl, hrest⟩ := ih h
      exact ⟨ticks + 1, by omega, .tick hp hrest⟩
    · rename_i hp
      cases h
      exact ⟨0, rfl, .done hp⟩

theorem Elapses.wholePeriods_eq (h : Elapses period backlog ticks left) (hfuel : ticks < fuel)
    (count : Nat) : wholePeriods period fuel count backlog = some (count + ticks, left) := by
  induction h generalizing fuel count with
  | done hp =>
    obtain _ | fuel := fuel
    · cases hfuel
    · rw [wholePeriods, if_neg hp, Nat.add_zero]
  | tick hp _ ih =>
    obtain _ | fuel := fuel
    · cases hfuel
    · rw [wholePeriods, if_pos hp, ih (Nat.lt_of_succ_lt_succ hfuel), Nat.add_assoc, Nat.add_comm 1]

/-- How many periods a backlog holds, and the rest, are its own affair. -/
theorem Elapses.unique {ticks' : Nat} {left' : Float32} (h : Elapses period backlog ticks left)
    (h' : Elapses period backlog ticks' left') : ticks = ticks' ∧ left = left' := by
  induction h generalizing ticks' with
  | done hp =>
    cases h' with
    | done => exact ⟨rfl, rfl⟩
    | tick hp' => exact absurd hp' hp
  | tick hp _ ih =>
    cases h' with
    | done hp' => exact absurd hp hp'
    | tick _ rest =>
      obtain ⟨rfl, rfl⟩ := ih rest
      exact ⟨rfl, rfl⟩

theorem spends_of_spend (h : spend period stops fuel backlog m = some spent) :
    ∃ met, Spends period stops backlog m met spent := by
  induction fuel generalizing backlog m with
  | zero => cases h
  | succ fuel ih =>
    rw [spend] at h
    split at h
    · rename_i hp
      dsimp only at h
      split at h
      · rename_i e he
        cases h
        exact ⟨[m], .last hp (.failed he)⟩
      · rename_i o ho
        split at h
        · rename_i hb
          cases h
          exact ⟨[m], .last hp (.stopped ho hb)⟩
        · rename_i hb
          rw [Bool.not_eq_true] at hb
          cases o with
          | advanced =>
            obtain ⟨met, hrest⟩ := ih h
            exact ⟨m :: met, .goesOn hp ⟨ho, hb⟩ hrest⟩
          | drew =>
            cases h
            exact ⟨[m], .last hp (.drew ho hb)⟩
          | waiting x =>
            cases h
            exact ⟨[m], .last hp (.waits ho hb)⟩
    · rename_i hp
      cases h
      exact ⟨[], .timeUp hp⟩

theorem Spends.spend_eq (h : Spends period stops backlog m met spent) (hfuel : met.length < fuel) :
    spend period stops fuel backlog m = some spent := by
  induction h generalizing fuel with
  | timeUp hp =>
    obtain _ | fuel := fuel
    · cases hfuel
    · rw [spend, if_neg hp]
  | last hp he =>
    obtain _ | fuel := fuel
    · cases hfuel
    · rw [spend, if_pos hp]
      cases he with
      | failed hs => simp only [hs]
      | stopped hs hb => simp only [hs, hb, if_true]
      | drew hs hb | waits hs hb => simp only [hs, hb, Bool.false_eq_true, if_false]
  | goesOn hp hs _ ih =>
    obtain _ | fuel := fuel
    · cases hfuel
    · rw [spend, if_pos hp]
      simp only [hs.1, hs.2, Bool.false_eq_true, if_false]
      exact ih (Nat.lt_of_succ_lt_succ hfuel)

theorem Ends.unique {result' : Except StepError UpdateOutcome} {left' : Float32}
    (h : Ends stops s backlog result left) (h' : Ends stops s backlog result' left') :
    result = result' ∧ left = left' := by
  cases h <;> cases h' <;> simp_all

theorem GoesOn.not_ends (h : GoesOn stops s) : ¬Ends stops s backlog result left := by
  obtain ⟨hs, hb⟩ := h
  intro hends
  cases hends <;> simp_all

/-- The steps of a call, and what they come to, follow from the machine and the backlog. -/
theorem Spends.unique {met' : List Machine} {spent' : Spent}
    (h : Spends period stops backlog m met spent)
    (h' : Spends period stops backlog m met' spent') : met = met' ∧ spent = spent' := by
  induction h generalizing met' spent' with
  | timeUp hp =>
    cases h' with
    | timeUp => exact ⟨rfl, rfl⟩
    | last hp' | goesOn hp' => exact absurd hp' hp
  | last hp he =>
    cases h' with
    | timeUp hp' => exact absurd hp hp'
    | last _ he' =>
      obtain ⟨rfl, rfl⟩ := he.unique he'
      exact ⟨rfl, rfl⟩
    | goesOn _ hs => exact absurd he hs.not_ends
  | goesOn hp hs _ ih =>
    cases h' with
    | timeUp hp' => exact absurd hp hp'
    | last _ he => exact absurd he hs.not_ends
    | goesOn _ _ rest =>
      obtain ⟨rfl, rfl⟩ := ih rest
      exact ⟨rfl, rfl⟩

theorem updates_of_updateUntil (h : r.updateUntil fuel dt stops = some (result, after)) :
    ∃ ticks met, Updates r dt stops ticks met result after := by
  unfold updateUntil at h
  split at h
  · cases h
  · rename_i ticks left hticks
    split at h
    · cases h
    · rename_i spent hspend
      cases h
      obtain ⟨_, rfl, helapses⟩ := elapses_of_wholePeriods hticks
      rw [Nat.zero_add] at hspend
      obtain ⟨met, hspends⟩ := spends_of_spend hspend
      exact ⟨_, met, helapses, hspends, rfl, rfl⟩

/-- A call returns if its ticks and its steps come to an end, and it returns what they come to. -/
theorem exists_updateUntil_iff :
    (∃ fuel, r.updateUntil fuel dt stops = some (result, after)) ↔
      ∃ ticks met, Updates r dt stops ticks met result after := by
  constructor
  · rintro ⟨fuel, h⟩
    exact updates_of_updateUntil h
  · rintro ⟨ticks, met, helapses, hspends, hcpu, htimer⟩
    -- One more than either loop takes, as the last round finds no period.
    refine ⟨max ticks met.length + 1, ?_⟩
    have hticks : ticks < max ticks met.length + 1 := by omega
    have hmet : met.length < max ticks met.length + 1 := by omega
    rw [updateUntil, helapses.wholePeriods_eq hticks 0, Nat.zero_add]
    dsimp only
    rw [hspends.spend_eq hmet]
    dsimp only
    rw [← hcpu, ← htimer]

/-- Ticks in a row are a history of ticks. -/
theorem acts_replicate_tick (n : Nat) (m : Machine) :
    m.acts (List.replicate n .tick) = m.tickN n := by
  induction n generalizing m with
  | zero => rfl
  | succ n ih => exact ih m.tick

theorem Spends.machine_eq (h : Spends period stops backlog m met spent) :
    spent.machine = m.acts (List.replicate met.length .step) := by
  induction h with
  | timeUp => rfl
  | last => rfl
  | goesOn _ _ _ ih => exact ih

theorem Spends.steps_eq (h : Spends period stops backlog m met spent) :
    m.steps met.length = met.map Machine.step := by
  induction h with
  | timeUp => rfl
  | @last _ _ m _ _ _ =>
    rw [List.length_singleton, Machine.steps, List.map_singleton]
    cases m.step.result <;> rfl
  | goesOn hp hs _ ih =>
    rw [List.length_cons, Machine.steps, List.map_cons, hs.1, ih]

/-- Every step but the last one goes on. The call ends because the time is up, or with its last
step. -/
theorem Spends.ending (h : Spends period stops backlog m met spent) :
    (∀ s ∈ (met.map Machine.step).dropLast, GoesOn stops s) ∧
      ((¬period ≤ spent.backlog ∧ spent.result = .ok .completed ∧
          ∀ s ∈ (met.map Machine.step).getLast?, GoesOn stops s) ∨
        ∃ s left, (met.map Machine.step).getLast? = some s ∧
          Ends stops s left spent.result spent.backlog) := by
  induction h with
  | timeUp hp => exact ⟨by simp, .inl ⟨hp, rfl, by simp⟩⟩
  | @last _ _ m _ _ he => exact ⟨by simp, .inr ⟨m.step, _, rfl, he⟩⟩
  | @goesOn _ m met spent hp hs rest ih =>
    obtain ⟨hbefore, hlast⟩ := ih
    cases met with
    | nil =>
      -- The step went on, but no period was left.
      cases rest with
      | timeUp hp' => exact ⟨by simp, .inl ⟨hp', rfl, by simpa using hs⟩⟩
    | cons n met =>
      rw [List.map_cons, List.map_cons, List.dropLast_cons_cons, List.getLast?_cons_cons]
      exact ⟨List.forall_mem_cons.mpr ⟨hs, hbefore⟩, hlast⟩

/-- What a call answers, told by its last step, if it makes one. -/
structure Told (stops : Option Breakpoints) (last : Option Step)
    (result : Except StepError UpdateOutcome) : Prop where
  failed (e : StepError) : result = .error e ↔ ∃ s ∈ last, s.result = .error e
  stopped : result = .ok .hitBreakpoint ↔
    ∃ s ∈ last, (∃ o, s.result = .ok o) ∧ stopsAt stops s.machine.pc = true
  waits : result = .ok .waitingForKey ↔
    ∃ s ∈ last, (∃ x, s.result = .ok (.waiting x)) ∧ stopsAt stops s.machine.pc = false
  completed : result = .ok .completed ↔
    last = none ∨ ∃ s ∈ last, (s.result = .ok .advanced ∨ s.result = .ok .drew) ∧
      stopsAt stops s.machine.pc = false

theorem told_none : Told stops none (.ok .completed) := by
  constructor <;> simp

theorem GoesOn.told (h : GoesOn stops s) : Told stops (some s) (.ok .completed) := by
  obtain ⟨hs, hb⟩ := h
  constructor <;> simp [hs, hb]

theorem Ends.told (h : Ends stops s backlog result left) : Told stops (some s) result := by
  cases h with
  | failed hs => constructor <;> simp [hs]
  | stopped hs hb | drew hs hb | waits hs hb => constructor <;> simp [hs, hb]

theorem Spends.told (h : Spends period stops backlog m met spent) :
    Told stops (met.map Machine.step).getLast? spent.result := by
  rcases h.ending.2 with ⟨-, hresult, hlast⟩ | ⟨s, left, hs, hends⟩
  · rw [hresult]
    cases hs : (met.map Machine.step).getLast? with
    | none => exact told_none
    | some s => exact (hlast s hs).told
  · rw [hs]
    exact hends.told

/-- No time is left over by a step that ends the call and does not fail. -/
theorem Spends.backlog_eq_zero (h : Spends period stops backlog m met spent)
    (hr : spent.result = .ok .hitBreakpoint ∨ spent.result = .ok .waitingForKey ∨
      ∃ s ∈ (met.map Machine.step).getLast?, s.result = .ok .drew) : spent.backlog = 0 := by
  rcases h.ending.2 with ⟨-, hresult, hlast⟩ | ⟨s, left, hs, hends⟩
  · rcases hr with hr | hr | ⟨s, hs, hdrew⟩
    · cases hresult.symm.trans hr
    · cases hresult.symm.trans hr
    · cases (hlast s hs).1.symm.trans hdrew
  · generalize spent.result = result, spent.backlog = rest at hr hends ⊢
    cases hends with
    | failed he =>
      rcases hr with hr | hr | ⟨s', hs', hdrew⟩
      · cases hr
      · cases hr
      · obtain rfl := Option.some.inj (hs.symm.trans hs')
        cases he.symm.trans hdrew
    | stopped | drew | waits => rfl

theorem Spends.drew_or_timeUp (h : Spends period stops backlog m met spent)
    (hr : spent.result = .ok .completed) :
    (∃ s ∈ (met.map Machine.step).getLast?, s.result = .ok .drew) ∨ ¬period ≤ spent.backlog := by
  rcases h.ending.2 with ⟨hleft, -, -⟩ | ⟨s, left, hs, hends⟩
  · exact .inr hleft
  · rw [hr] at hends
    generalize spent.backlog = rest at hends
    cases hends with
    | drew hdrew => exact .inl ⟨s, hs, hdrew⟩

/-- Of a set of breakpoints no more is asked than whether a program counter is in it. -/
theorem spend_congr {stops' : Option Breakpoints} (h : ∀ pc, stopsAt stops pc = stopsAt stops' pc) :
    spend period stops fuel backlog m = spend period stops' fuel backlog m := by
  induction fuel generalizing backlog m with
  | zero => rfl
  | succ fuel ih => simp only [spend, h, ih]

theorem updateUntil_none_eq (r : Runner) (fuel : Nat) (dt : Float32) :
    r.updateUntil fuel dt (some .none) = r.updateUntil fuel dt none := by
  have hstops (pc : UInt16) : stopsAt (some .none) pc = stopsAt none pc := rfl
  simp only [updateUntil, spend_congr hstops]

/-- A call makes some ticks, then some steps, and does nothing else to the machine. Each step but
the last one advances to a place without a breakpoint, and the last one tells the outcome. No time
is left for steps after a breakpoint, a wait or a draw, and otherwise less than a period after a
call that completes. Without breakpoints it is one whether they are an empty set or none at all. -/
theorem update_ticks_then_steps (r : Runner) (dt : Float32) :
    (∀ stops fuel result after, r.updateUntil fuel dt stops = some (result, after) →
      ∃ ticks count,
        let ticked := r.machine.acts (List.replicate ticks .tick)
        let made := ticked.steps count
        Elapses r.timerPeriod (r.timerBacklog + dt) ticks after.timerBacklog ∧
        after = { r with
          machine := ticked.acts (List.replicate count .step)
          cpuBacklog := after.cpuBacklog, timerBacklog := after.timerBacklog } ∧
        made.length = count ∧ (∀ s ∈ made.dropLast, GoesOn stops s) ∧
        Told stops made.getLast? result ∧
        (result = .ok .hitBreakpoint ∨ result = .ok .waitingForKey ∨
          (∃ s ∈ made.getLast?, s.result = .ok .drew) → after.cpuBacklog = 0) ∧
        (result = .ok .completed →
          (∃ s ∈ made.getLast?, s.result = .ok .drew) ∨ ¬r.cpuPeriod ≤ after.cpuBacklog)) ∧
    ∀ fuel, r.updateFreely fuel dt = r.updateUntil fuel dt none ∧
      r.update fuel dt .none = r.updateUntil fuel dt none := by
  refine ⟨fun stops fuel result after h => ?_, fun fuel => ⟨rfl, r.updateUntil_none_eq fuel dt⟩⟩
  obtain ⟨ticks, met, helapses, hspends, hcpu, htimer⟩ := updates_of_updateUntil h
  have hmachine : after.machine = _ := hspends.machine_eq
  refine ⟨ticks, met.length, ?_⟩
  intro ticked made
  have hticked : ticked = r.machine.tickN ticks := acts_replicate_tick ..
  have hmade : made = met.map Machine.step := by
    change ticked.steps met.length = _
    rw [hticked]
    exact hspends.steps_eq
  have hafter : after = { r with
      machine := ticked.acts (List.replicate met.length .step)
      cpuBacklog := after.cpuBacklog, timerBacklog := after.timerBacklog } := by
    rw [hticked, ← hmachine, ← hcpu, ← htimer]
  rw [hmade]
  exact ⟨helapses, hafter, List.length_map .., hspends.ending.1, hspends.told,
    hspends.backlog_eq_zero, hspends.drew_or_timeUp⟩

/-- A runner whose machine is about to set three registers. -/
def settingRegisters : Runner := start { Machine.powerOn { cpuHz := 100, timerHz := 10 } 0 with
  memory := ⟨overlay Memory.zero.bytes 0x200 [0x60, 0x01, 0x61, 0x02, 0x62, 0x03]⟩ }

theorem update_ticks_then_steps_settingRegisters :
    let stops := some (Breakpoints.none.insert 0x204)
    ∃ result after, settingRegisters.updateUntil 20 0.15 stops = some (result, after) ∧
      result = .ok .hitBreakpoint ∧ after.machine.pc = 0x204 ∧ after.cpuBacklog = 0 ∧
      ∃ ticks count,
        let made := (settingRegisters.machine.acts (List.replicate ticks .tick)).steps count
        made.length = count ∧ (∀ s ∈ made.dropLast, GoesOn stops s) ∧
          ∃ s ∈ made.getLast?, (∃ o, s.result = .ok o) ∧ stopsAt stops s.machine.pc = true := by
  intro stops
  have hcall : (settingRegisters.updateUntil 20 0.15 stops).map
      (fun call => (call.1, call.2.machine.pc)) = some (.ok .hitBreakpoint, 0x204) := by
    decide +kernel
  obtain ⟨⟨result, after⟩, h, heq⟩ := Option.map_eq_some_iff.mp hcall
  obtain ⟨hresult, hpc⟩ := Prod.mk.inj heq
  obtain ⟨ticks, count, -, -, hlength, hbefore, htold, hzero, -⟩ :=
    (update_ticks_then_steps settingRegisters 0.15).1 stops 20 result after h
  exact ⟨result, after, h, hresult, hpc, hzero (.inl hresult), ticks, count, hlength, hbefore,
    htold.stopped.mp hresult⟩

/-- A call that returns. -/
structure Call where
  before : Runner
  fuel : Nat
  dt : Float32
  stops : Option Breakpoints
  result : Except StepError UpdateOutcome
  after : Runner
  returns : before.updateUntil fuel dt stops = some (result, after)

namespace Call

/-- The call makes this many ticks, and then some steps. -/
def Ticks (c : Call) (ticks : Nat) : Prop :=
  ∃ met, Updates c.before c.dt c.stops ticks met c.result c.after

theorem timerPeriod_after (c : Call) : c.after.timerPeriod = c.before.timerPeriod := by
  obtain ⟨ticks, met, hcall⟩ := updates_of_updateUntil c.returns
  exact hcall.timerPeriod_eq

/-- The time that a call has for its timers tells how much of it is left. -/
theorem timerBacklog_after {c : Call}
    (h : Elapses c.before.timerPeriod (c.before.timerBacklog + c.dt) ticks left) :
    c.after.timerBacklog = left := by
  obtain ⟨own, met, hcall⟩ := updates_of_updateUntil c.returns
  exact (hcall.elapses.unique h).2

/-- It also tells how often the call ticks. -/
theorem ticks_iff {c : Call}
    (h : Elapses c.before.timerPeriod (c.before.timerBacklog + c.dt) ticks left) (n : Nat) :
    c.Ticks n ↔ n = ticks := by
  constructor
  · rintro ⟨met, hcall⟩
    exact (hcall.elapses.unique h).1
  · rintro rfl
    obtain ⟨own, met, hcall⟩ := updates_of_updateUntil c.returns
    obtain ⟨rfl, -⟩ := hcall.elapses.unique h
    exact ⟨met, hcall⟩

end Call

/-- One call after another. Between the calls the host may make any other machine of the machine. -/
inductive Calls : Runner → List Call → Prop
  | nil {r : Runner} : Calls r []
  | cons {r : Runner} {c : Call} {m : Machine} {calls : List Call}
      (hc : c.before = { r with machine := m }) (rest : Calls c.after calls) :
      Calls r (c :: calls)

/-- Two runners whose timers start alike are called with the same times, and each call returns.
Call by call they tick equally often and keep equal backlogs for their timers, whatever their
machines do and however their calls end. -/
theorem pace_independent {r₁ r₂ : Runner} {calls₁ calls₂ : List Call}
    (hperiod : r₁.timerPeriod = r₂.timerPeriod) (hbacklog : r₁.timerBacklog = r₂.timerBacklog)
    (h₁ : Calls r₁ calls₁) (h₂ : Calls r₂ calls₂)
    (hdt : calls₁.map Call.dt = calls₂.map Call.dt) :
    List.Forall₂ (fun c₁ c₂ =>
      (∃ ticks, ∀ n, (c₁.Ticks n ↔ n = ticks) ∧ (c₂.Ticks n ↔ n = ticks)) ∧
        c₁.after.timerBacklog = c₂.after.timerBacklog) calls₁ calls₂ := by
  induction h₁ generalizing r₂ calls₂ with
  | nil =>
    cases h₂ with
    | nil => exact .nil
    | cons => cases hdt
  | @cons r₁ c₁ _ _ hc₁ _ ih =>
    cases h₂ with
    | nil => cases hdt
    | @cons _ c₂ _ _ hc₂ rest₂ =>
      obtain ⟨hsame, hdts⟩ := List.cons.inj hdt
      have hperiods : c₁.before.timerPeriod = c₂.before.timerPeriod := by
        rw [hc₁, hc₂]
        exact hperiod
      have htimes : c₁.before.timerBacklog + c₁.dt = c₂.before.timerBacklog + c₂.dt := by
        rw [hc₁, hc₂, hsame]
        exact congrArg (· + c₂.dt) hbacklog
      obtain ⟨ticks, met, hcall⟩ := updates_of_updateUntil c₁.returns
      have hother := hcall.elapses
      rw [hperiods, htimes] at hother
      have hleft := Call.timerBacklog_after hother
      refine .cons ⟨⟨ticks, fun n => ?_⟩, hleft.symm⟩ (ih ?_ hleft.symm rest₂ hdts)
      · exact ⟨Call.ticks_iff hcall.elapses n, Call.ticks_iff hother n⟩
      · rw [c₁.timerPeriod_after, c₂.timerPeriod_after, hperiods]

/-- A runner whose machine has failed. -/
def afterFault : Runner :=
  start { Machine.powerOn { cpuHz := 60 } 0 with fault := some .stackUnderflow }

/-- A faster runner whose machine does nothing but clear its screen. -/
def clearingScreen : Runner := start { Machine.powerOn { cpuHz := 900 } 0 with
  memory := ⟨overlay Memory.zero.bytes 0x200 [0x00, 0xE0, 0x12, 0x00]⟩ }

/-- Each call of the one fails, each call of the other is ended by a draw. -/
theorem pace_independent_afterFault : ∃ fails draws,
    Calls afterFault fails ∧ Calls clearingScreen draws ∧ fails.map Call.dt = [0.02, 0.04] ∧
      draws.map Call.dt = fails.map Call.dt ∧ List.Forall₂ Call.Ticks fails [1, 2] ∧
      List.Forall₂ Call.Ticks draws [1, 2] := by
  have hreturns (r : Runner) (h : ((r.updateUntil 40 0.02 none).bind fun call =>
      call.2.updateUntil 40 0.04 none).isSome = true) :
      ∃ c d : Call, Calls r [c, d] ∧ c.before = r ∧ d.before = c.after ∧
        c.dt = 0.02 ∧ d.dt = 0.04 := by
    obtain ⟨second, hcalls⟩ := Option.isSome_iff_exists.mp h
    obtain ⟨first, hfirst, hsecond⟩ := Option.bind_eq_some_iff.mp hcalls
    refine ⟨⟨_, _, _, _, _, _, hfirst⟩, ⟨_, _, _, _, _, _, hsecond⟩, ?_, rfl, rfl, rfl, rfl⟩
    exact .cons (m := r.machine) rfl (.cons (m := first.2.machine) rfl .nil)
  obtain ⟨c, d, hfails, hstart, hnext, hfirst, hsecond⟩ := hreturns afterFault (by decide +kernel)
  obtain ⟨c', d', hdraws, -, -, hfirst', hsecond'⟩ := hreturns clearingScreen (by decide +kernel)
  have hdt : [c, d].map Call.dt = [0.02, 0.04] := by simp [hfirst, hsecond]
  have hdt' : [c', d'].map Call.dt = [c, d].map Call.dt := by simp [hfirst', hsecond', hdt]
  have helapses : Elapses c.before.timerPeriod (c.before.timerBacklog + c.dt) 1
      (afterFault.timerBacklog + 0.02 - afterFault.timerPeriod) := by
    rw [hstart, hfirst]
    exact .tick (by decide +kernel) (.done (by decide +kernel))
  have hleft := Call.timerBacklog_after helapses
  obtain ⟨_, helapses'⟩ : ∃ left,
      Elapses d.before.timerPeriod (d.before.timerBacklog + d.dt) 2 left := by
    rw [hnext, c.timerPeriod_after, hleft, hstart, hsecond]
    exact ⟨_, .tick (by decide +kernel) (.tick (by decide +kernel) (.done (by decide +kernel)))⟩
  have honce : c.Ticks 1 := (Call.ticks_iff helapses 1).mpr rfl
  have htwice : d.Ticks 2 := (Call.ticks_iff helapses' 2).mpr rfl
  have hrate : afterFault.machine.config.timerHz = clearingScreen.machine.config.timerHz := rfl
  have hperiod : afterFault.timerPeriod = clearingScreen.timerPeriod :=
    (timerPeriod_start _).trans ((congrArg (1 / ·) hrate).trans (timerPeriod_start _).symm)
  have hbacklog : afterFault.timerBacklog = clearingScreen.timerBacklog :=
    (timerBacklog_start _).trans (timerBacklog_start _).symm
  have hpace := pace_independent hperiod hbacklog hfails hdraws hdt'.symm
  simp only [List.forall₂_cons, List.Forall₂.nil, and_true] at hpace
  obtain ⟨⟨⟨_, hticks⟩, -⟩, ⟨_, hticks'⟩, -⟩ := hpace
  refine ⟨[c, d], [c', d'], hfails, hdraws, hdt, hdt', ?_, ?_⟩
  · exact .cons honce (.cons htwice .nil)
  · have honce' : c'.Ticks 1 := (hticks 1).2.mpr ((hticks 1).1.mp honce)
    have htwice' : d'.Ticks 2 := (hticks' 2).2.mpr ((hticks' 2).1.mp htwice)
    exact .cons honce' (.cons htwice' .nil)

end Chip8.Runner
