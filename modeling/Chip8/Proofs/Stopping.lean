import Chip8.Proofs.Spending

/-!
Breakpoints. A debugger that was told to run does not execute an instruction at a breakpoint,
unless it is the first one that it comes to: an instruction that leaves the program counter on a
breakpoint is the last one until the next command.
-/

namespace Chip8

/-- A step fetches an instruction: it is not refused and does not wait. -/
def Machine.fetches (m : Machine) : Bool := m.fault.isNone && m.awaiting.isNone

namespace Runner

variable {period backlog : Float32} {stops : Option Breakpoints} {m n : Machine}
  {met before later : List Machine} {spent : Spent}

theorem pc_tickN (k : Nat) (m : Machine) : (m.tickN k).pc = m.pc := by
  induction k generalizing m with
  | zero => rfl
  | succ k ih => exact ih m.tick

/-- A call that begins off the breakpoints steps no machine that stands on one. -/
theorem Spends.off (h : Spends period stops backlog m met spent)
    (hm : stopsAt stops m.pc = false) : ∀ n ∈ met, stopsAt stops n.pc = false := by
  induction h with
  | timeUp => exact List.forall_mem_nil _
  | last => exact List.forall_mem_singleton.mpr hm
  | goesOn _ hs _ ih => exact List.forall_mem_cons.mpr ⟨hm, ih hs.2⟩

theorem Spends.tail_off (h : Spends period stops backlog m met spent) :
    ∀ n ∈ met.tail, stopsAt stops n.pc = false := by
  cases h with
  | timeUp | last => exact List.forall_mem_nil _
  | goesOn _ hs rest => exact rest.off hs.2

/-- A call that is not stopped leaves the machine off the breakpoints, if it steps at all. -/
theorem Spends.machine_off (h : Spends period stops backlog m met spent)
    (hm : met = [] → stopsAt stops m.pc = false)
    (hr : spent.result = .ok .completed ∨ spent.result = .ok .waitingForKey) :
    stopsAt stops spent.machine.pc = false := by
  induction h with
  | timeUp => exact hm rfl
  | last _ he =>
    cases he with
    | failed | stopped => rcases hr with hr | hr <;> cases hr
    | drew _ hb | waits _ hb => exact hb
  | goesOn _ hs _ ih => exact ih (fun _ => hs.2) hr

/-- A step that goes through and ends on a breakpoint is the last one of the call. -/
theorem Spends.stopped (h : Spends period stops backlog m (before ++ n :: later) spent)
    {o : Outcome} (ho : n.step.result = .ok o) (hb : stopsAt stops n.step.machine.pc = true) :
    later = [] ∧ spent.result = .ok .hitBreakpoint := by
  have hbefore := h.ending.1
  have htold := h.told
  rw [List.map_append, List.map_cons] at hbefore htold
  cases later with
  | nil =>
    rw [List.map_nil, List.getLast?_concat] at htold
    exact ⟨rfl, htold.stopped.mpr ⟨_, rfl, ⟨o, ho⟩, hb⟩⟩
  | cons k later =>
    -- Before a later step this one would have gone on, off the breakpoints.
    have hmem : n.step ∈ (before.map Machine.step ++
        n.step :: (k :: later).map Machine.step).dropLast := by
      rw [List.map_cons, List.dropLast_append_cons, List.dropLast_cons_cons]
      exact List.mem_append_right _ List.mem_cons_self
    rw [(hbefore _ hmem).2] at hb
    cases hb

end Runner

namespace Debugger

/-- A poll that steps these machines. While the debugger is paused there are none. -/
structure Polls (d : Debugger) (dt : Float32) (met : List Machine)
    (result : Except StepError UpdateOutcome) (after : Debugger) : Prop where
  returns : ∃ fuel, d.poll fuel dt = some (result, after)
  steps (h : d.running = true) : ∃ ticks,
    d.runner.Updates dt (some d.breakpoints) ticks met result after.runner
  rests (h : d.running = false) : met = []

/-- Time passes and keys move, and no command is given. The list has the machines that are stepped,
the first one first. -/
inductive Session (d : Debugger) : List Machine → Debugger → Prop
  | start : Session d [] d
  | poll {met more : List Machine} {now after : Debugger} {dt : Float32}
      {result : Except StepError UpdateOutcome} (s : Session d met now)
      (hp : now.Polls dt more result after) : Session d (met ++ more) after
  | setKey {met : List Machine} {now : Debugger} (s : Session d met now) (k : Nibble)
      (pressed : Bool) : Session d met { now with runner := now.runner.setKey k pressed }

/-- Where a session stands that has stepped the machines `met`. -/
structure Guarded (stops : Breakpoints) (met : List Machine) (now : Debugger) : Prop where
  breakpoints_eq : now.breakpoints = stops
  tail_off : ∀ m ∈ met.tail, stops.contains m.pc = false
  machine_off (h : met ≠ []) (hr : now.running = true) : stops.contains now.machine.pc = false

variable {d now after : Debugger} {fuel : Nat} {dt : Float32} {met more : List Machine}
  {result : Except StepError UpdateOutcome} {stops : Breakpoints}

theorem poll_cases (h : d.poll fuel dt = some (result, after)) :
    (d.running = true ∧ d.runner.update fuel dt d.breakpoints = some (result, after.runner) ∧
      after.breakpoints = d.breakpoints ∧
      (after.running = true ↔ result = .ok .completed ∨ result = .ok .waitingForKey)) ∨
    (d.running = false ∧ result = .ok .completed ∧ after = d) := by
  unfold poll at h
  split at h
  · rename_i hrunning
    obtain ⟨⟨result', runner⟩, hupdate, heq⟩ := Option.map_eq_some_iff.mp h
    cases heq
    refine .inl ⟨hrunning, hupdate, rfl, ?_⟩
    rcases result with e | outcome
    · simp
    · cases outcome <;> simp
  · rename_i hrunning
    rw [Bool.not_eq_true] at hrunning
    cases h
    exact .inr ⟨hrunning, rfl, rfl⟩

/-- Every poll that returns steps some machines. -/
theorem exists_polls (h : d.poll fuel dt = some (result, after)) :
    ∃ met, d.Polls dt met result after := by
  rcases poll_cases h with ⟨hrunning, hupdate, -, -⟩ | ⟨hpaused, -, -⟩
  · obtain ⟨ticks, met, hupdates⟩ := Runner.updates_of_updateUntil hupdate
    refine ⟨met, ⟨fuel, h⟩, fun _ => ⟨ticks, hupdates⟩, fun hpaused => ?_⟩
    cases hrunning.symm.trans hpaused
  · refine ⟨[], ⟨fuel, h⟩, fun hrunning => ?_, fun _ => rfl⟩
    cases hpaused.symm.trans hrunning

theorem Polls.unique (h : d.Polls dt met result after) (h' : d.Polls dt more result after) :
    met = more := by
  cases hrunning : d.running with
  | false => rw [h.rests hrunning, h'.rests hrunning]
  | true =>
    obtain ⟨_, hupdates⟩ := h.steps hrunning
    obtain ⟨_, hupdates'⟩ := h'.steps hrunning
    obtain ⟨rfl, -⟩ := hupdates.elapses.unique hupdates'.elapses
    exact (hupdates.spends.unique hupdates'.spends).1

theorem Guarded.poll (h : Guarded stops met now) (hp : now.Polls dt more result after) :
    Guarded stops (met ++ more) after := by
  obtain ⟨fuel, hpoll⟩ := hp.returns
  rcases poll_cases hpoll with ⟨hrunning, -, hbreakpoints, hgoes⟩ | ⟨hpaused, -, rfl⟩
  · obtain ⟨ticks, hupdates⟩ := hp.steps hrunning
    have hspends := hupdates.spends
    rw [h.breakpoints_eq] at hspends
    have hstart (hmet : met ≠ []) :
        Runner.stopsAt (some stops) (now.runner.machine.tickN ticks).pc = false := by
      rw [Runner.pc_tickN]
      exact h.machine_off hmet hrunning
    refine ⟨hbreakpoints.trans h.breakpoints_eq, ?_, fun hsteps hruns => ?_⟩
    -- The first machine of the session may stand on a breakpoint, that of a later poll does not.
    · cases met with
      | nil => exact hspends.tail_off
      | cons m met =>
        rw [List.cons_append, List.tail_cons]
        exact List.forall_mem_append.mpr ⟨h.tail_off, hspends.off (hstart nofun)⟩
    · refine hspends.machine_off (fun hmore => hstart ?_) (hgoes.mp hruns)
      rwa [hmore, List.append_nil] at hsteps
  · rw [hp.rests hpaused, List.append_nil]
    exact h

theorem Session.guarded (h : Session d met now) : Guarded d.breakpoints met now := by
  induction h with
  | start => exact ⟨rfl, List.forall_mem_nil _, fun h => absurd rfl h⟩
  | poll _ hp ih => exact ih.poll hp
  | @setKey met now _ k pressed ih =>
    have hpc : (now.machine.setKey k pressed).pc = now.machine.pc := by
      rcases now.machine.setKey_cases k pressed with hs | ⟨r, -, hs⟩ <;> rw [hs]
    refine ⟨ih.breakpoints_eq, ih.tail_off, fun hmet hr => ?_⟩
    exact hpc.symm ▸ ih.machine_off hmet hr

/-- A poll pauses a running debugger with a breakpoint or an error, and with nothing else. -/
theorem running_eq_false_iff (hd : d.running = true) (h : d.poll fuel dt = some (result, after)) :
    after.running = false ↔ result = .ok .hitBreakpoint ∨ ∃ e, result = .error e := by
  rcases poll_cases h with ⟨-, -, -, hgoes⟩ | ⟨hpaused, -, -⟩
  · rw [← Bool.not_eq_true, hgoes]
    rcases result with e | outcome
    · simp
    · cases outcome <;> simp
  · cases hpaused.symm.trans hd

/-- A poll that returns steps the machines of one list and no other. From a command to run until the
next command, whatever time passes and whatever keys are pressed, only the first instruction to be
fetched can stand at a breakpoint. A step that goes through and leaves the program counter on a
breakpoint is the last one of its poll, which answers so and leaves the debugger paused. Errors and
breakpoints pause a debugger, nothing else does, and a poll finds a paused debugger and leaves it as
it is. -/
theorem run_stops_at_breakpoints (d : Debugger) :
    (∀ fuel dt result after, d.poll fuel dt = some (result, after) →
      ∃ met, ∀ other, d.Polls dt other result after ↔ other = met) ∧
    (∀ met now, Session (d.perform .run).2 met now →
      ∀ m ∈ (met.filter Machine.fetches).tail, d.breakpoints.contains m.pc = false) ∧
    (∀ dt before m later result after, d.Polls dt (before ++ m :: later) result after →
      (∃ o, m.step.result = .ok o) → d.breakpoints.contains m.step.machine.pc = true →
        later = [] ∧ result = .ok .hitBreakpoint ∧ after.running = false) ∧
    (d.running = true → ∀ fuel dt result after, d.poll fuel dt = some (result, after) →
      (after.running = false ↔ result = .ok .hitBreakpoint ∨ ∃ e, result = .error e)) ∧
    (d.running = false → ∀ fuel dt, d.poll fuel dt = some (.ok .completed, d)) := by
  refine ⟨?_, ?_, ?_, ?_, ?_⟩
  · intro fuel dt result after hpoll
    obtain ⟨met, hp⟩ := exists_polls hpoll
    refine ⟨met, fun other => ⟨fun hother => hother.unique hp, ?_⟩⟩
    rintro rfl
    exact hp
  · intro met now hsession m hm
    have hfetched : (met.filter Machine.fetches).tail.Sublist met.tail :=
      List.filter_sublist.tail
    exact hsession.guarded.tail_off m (hfetched.subset hm)
  · rintro dt before m later result after hp ⟨o, ho⟩ hb
    obtain ⟨fuel, hpoll⟩ := hp.returns
    cases hrunning : d.running with
    | false =>
      have hnone := hp.rests hrunning
      simp at hnone
    | true =>
      obtain ⟨ticks, hupdates⟩ := hp.steps hrunning
      obtain ⟨hlater, hresult⟩ := hupdates.spends.stopped ho hb
      exact ⟨hlater, hresult, (running_eq_false_iff hrunning hpoll).mpr (.inl hresult)⟩
  · intro hrunning fuel dt result after hpoll
    exact running_eq_false_iff hrunning hpoll
  · intro hpaused fuel dt
    rw [poll, hpaused]
    rfl

/-- A debugger on a program that sets two registers and then loops, with breakpoints at its first
instruction and at the loop. -/
def settingTwo : Debugger :=
  { start { Machine.powerOn { cpuHz := 100, timerHz := 10 } 0 with
      memory := ⟨overlay Memory.zero.bytes 0x200 [0x60, 0x01, 0x61, 0x02, 0x12, 0x04]⟩ } with
    breakpoints := (Breakpoints.none.insert 0x200).insert 0x204 }

/-- The first instruction is executed in spite of its breakpoint, the loop is not. -/
theorem run_stops_at_breakpoints_settingTwo : ∃ met now,
    Session (settingTwo.perform .run).2 met now ∧ met.map Machine.pc = [0x200, 0x202] ∧
      (∀ m ∈ (met.filter Machine.fetches).tail, settingTwo.breakpoints.contains m.pc = false) ∧
      now.machine.pc = 0x204 ∧ now.running = false ∧
      ∀ fuel dt, now.poll fuel dt = some (.ok .completed, now) := by
  have hreturns : ((settingTwo.perform .run).2.poll 20 0.05).map
      (fun call => (call.1, call.2.machine.pc)) = some (.ok .hitBreakpoint, 0x204) := by
    decide +kernel
  obtain ⟨⟨result, now⟩, hpoll, heq⟩ := Option.map_eq_some_iff.mp hreturns
  obtain ⟨hresult, hpc⟩ := Prod.mk.inj heq
  obtain ⟨met, hmet⟩ := (run_stops_at_breakpoints _).1 20 0.05 result now hpoll
  have hp := (hmet met).mpr rfl
  have hsession : Session (settingTwo.perform .run).2 met now := .poll .start hp
  have hpaused : now.running = false :=
    ((run_stops_at_breakpoints _).2.2.2.1 rfl 20 0.05 result now hpoll).mpr (.inl hresult)
  have hlocations : met.map Machine.pc = [0x200, 0x202] := by
    obtain ⟨ticks, helapses, hspends, -⟩ := hp.steps rfl
    obtain ⟨rfl, -⟩ := helapses.unique (.done (by decide +kernel))
    have hlast (left : Float32) : Runner.Ends (some settingTwo.breakpoints)
        settingTwo.machine.step.machine.step left (.ok .hitBreakpoint) 0 :=
      .stopped (o := .advanced) (by decide +kernel) (by decide +kernel)
    obtain ⟨rfl, -⟩ := hspends.unique (.goesOn (by decide +kernel)
      ⟨by decide +kernel, by decide +kernel⟩ (.last (by decide +kernel) (hlast _)))
    decide +kernel
  exact ⟨met, now, hsession, hlocations, (run_stops_at_breakpoints settingTwo).2.1 met now hsession,
    hpc, hpaused, (run_stops_at_breakpoints now).2.2.2.2 hpaused⟩

end Debugger

end Chip8
