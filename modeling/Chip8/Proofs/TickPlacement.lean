import Chip8.Proofs.History

/-!
Where the ticks fall. Three instructions read or set a timer. While a program executes none of
them, ticks may come early or late: every step answers the same, and in the end the machine is the
same.
-/

namespace Chip8

/-- The instructions that read or set a timer. -/
inductive Instruction.UsesTimer : Instruction → Prop
  | readDelay {x : Nibble} : UsesTimer (.readDelay x)
  | setDelay {x : Nibble} : UsesTimer (.setDelay x)
  | setSound {x : Nibble} : UsesTimer (.setSound x)

def HostAction.isTick : HostAction → Bool
  | .tick => true
  | _ => false

theorem HostAction.eq_tick {a : HostAction} (h : a.isTick = true) : a = .tick := by
  cases a with
  | tick => rfl
  | step | setKey | loadRom | loadFont | reset | assign => cases h

namespace Machine

/-- An action of play that leaves the timers to the ticks. -/
def Untimed (m : Machine) (a : HostAction) : Prop :=
  a.InPlay ∧ (a = .step → ∀ i, m.Executes i → ¬i.UsesTimer)

/-- What the steps of a history answer, the first one first. -/
def stepResults (m : Machine) : List HostAction → List (Except StepError Outcome)
  | [] => []
  | .step :: history => m.step.result :: m.step.machine.stepResults history
  | a :: history => (m.act a).stepResults history

def withTimers (m : Machine) (delay sound : UInt8) : Machine :=
  { m with delayTimer := delay, soundTimer := sound }

theorem tick_eq (m : Machine) : m.tick = m.withTimers m.tick.delayTimer m.tick.soundTimer := rfl

theorem skipIf_withTimers (m : Machine) (delay sound : UInt8) (condition : Bool) :
    (m.withTimers delay sound).skipIf condition = (m.skipIf condition).withTimers delay sound := by
  cases condition <;> rfl

end Machine

namespace Execution

/-- The end of an execution on a machine with other timers. -/
def onTimers (delay sound : UInt8) {α : Type} :
    EStateM.Result Fault Machine α → EStateM.Result Fault Machine α
  | .ok a after => .ok a (after.withTimers delay sound)
  | .error cause after => .error cause (after.withTimers delay sound)

end Execution

open Execution

variable {m : Machine} {delay sound : UInt8}

/-- An instruction that uses no timer finds and leaves any in place. -/
theorem Instruction.execute_withTimers {i : Instruction} (hi : ¬i.UsesTimer) (m : Machine)
    (delay sound : UInt8) :
    i.execute (m.withTimers delay sound) = onTimers delay sound (i.execute m) := by
  cases i with
  | readDelay x => exact absurd .readDelay hi
  | setDelay x => exact absurd .setDelay hi
  | setSound x => exact absurd .setSound hi
  | ret =>
    rw [execute_ret, execute_ret]
    dsimp only [Machine.withTimers]
    cases m.stack.pop <;> rfl
  | call nnn =>
    rw [execute_call, execute_call]
    dsimp only [Machine.withTimers]
    cases m.stack.push m.pc <;> rfl
  | alu x y op => cases op <;> rfl
  | draw x y n =>
    have hrows : (m.withTimers delay sound).spriteRows y n = m.spriteRows y n := rfl
    rw [execute_draw, execute_draw, hrows]
    cases m.spriteRows y n <;> rfl
  | addIndex x =>
    rw [execute_addIndex, execute_addIndex]
    dsimp only [Machine.withTimers]
    split <;> rfl
  | storeDecimal x =>
    rw [execute_storeDecimal, execute_storeDecimal]
    dsimp only [Machine.withTimers]
    cases m.memory.splice m.index.toNat (Machine.decimalDigits (m.v.get x)) <;> rfl
  | saveRegisters x =>
    rw [execute_saveRegisters, execute_saveRegisters]
    dsimp only [Machine.withTimers]
    cases m.memory.splice m.index.toNat (m.v.toList.take (x.val + 1)) <;> rfl
  | restoreRegisters x =>
    rw [execute_restoreRegisters, execute_restoreRegisters]
    dsimp only [Machine.withTimers]
    cases m.memory.slice m.index.toNat (x.val + 1) <;> rfl
  | unknown word =>
    rw [execute_unknown, execute_unknown]
    dsimp only [Machine.withTimers]
    cases m.config.unknownOpcodes <;> rfl
  | skipEqByte | skipNeByte | skipEqRegister | skipNeRegister | skipKeyDown | skipKeyUp =>
    exact congrArg (EStateM.Result.ok Outcome.advanced) (m.skipIf_withTimers delay sound _)
  | _ => rfl

namespace Machine

variable {a : HostAction} {history history' : List HostAction}

theorem next_withTimers (hf : m.fault = none) (hw : m.awaiting = none)
    (h : ∀ i, m.Executes i → ¬i.UsesTimer) (delay sound : UInt8) :
    Execution.next (m.withTimers delay sound) = onTimers delay sound (Execution.next m) := by
  have hword : (m.withTimers delay sound).nextWord = m.nextWord := rfl
  rw [Execution.next_apply, Execution.next_apply, hword]
  cases hm : m.nextWord with
  | error cause => rfl
  | ok word =>
    have hi : ¬(Instruction.decode word).UsesTimer := h _ ⟨hf, hw, word, hm, rfl⟩
    exact Instruction.execute_withTimers hi m.pastFetch delay sound

/-- A step that uses no timer goes as it would with other timers. -/
theorem step_withTimers (h : ∀ i, m.Executes i → ¬i.UsesTimer) (delay sound : UInt8) :
    (m.withTimers delay sound).step =
      ⟨m.step.result, m.step.machine.withTimers delay sound⟩ := by
  rcases step_cases m with ⟨cause, hf, hs⟩ | ⟨r, hf, hw, hs⟩ | ⟨o, after, hf, hw, hn, hs⟩ |
      ⟨cause, after, hf, hw, hn, hs⟩ <;> rw [hs]
  · exact step_of_fault (m := m.withTimers delay sound) hf
  · exact step_of_awaiting (m := m.withTimers delay sound) hf hw
  · have hnext := next_withTimers hf hw h delay sound
    rw [hn] at hnext
    exact step_of_next (m := m.withTimers delay sound) hf hw hnext
  · have hnext := next_withTimers hf hw h delay sound
    rw [hn] at hnext
    exact step_of_next_error (m := m.withTimers delay sound) hf hw hnext

theorem timers_step (h : ∀ i, m.Executes i → ¬i.UsesTimer) :
    m.step.machine.delayTimer = m.delayTimer ∧ m.step.machine.soundTimer = m.soundTimer := by
  have hsame : m.step.machine = m.step.machine.withTimers m.delayTimer m.soundTimer :=
    congrArg Step.machine (step_withTimers h m.delayTimer m.soundTimer)
  rw [hsame]
  exact ⟨rfl, rfl⟩

theorem tick_congr {n : Machine} (hdelay : n.delayTimer = m.delayTimer)
    (hsound : n.soundTimer = m.soundTimer) :
    n.tick = n.withTimers m.tick.delayTimer m.tick.soundTimer := by
  simp only [tick, withTimers, hdelay, hsound]

theorem toNat_tick (m : Machine) :
    m.tick.delayTimer.toNat = m.delayTimer.toNat - 1 ∧
      m.tick.soundTimer.toNat = m.soundTimer.toNat - 1 := by
  have hdown (t : UInt8) : (if t = 0 then 0 else t - 1).toNat = t.toNat - 1 := by
    split
    · rename_i h
      rw [h]
      rfl
    · rename_i h
      have hpos : 1 ≤ t := by
        rw [UInt8.le_iff_toNat_le]
        have hne : t.toNat ≠ 0 := fun h0 => h (UInt8.toNat_inj.mp h0)
        exact Nat.one_le_iff_ne_zero.mpr hne
      rw [UInt8.toNat_sub_of_le t 1 hpos]
      rfl
  exact ⟨hdown m.delayTimer, hdown m.soundTimer⟩

/-- A tick and an action that uses no timer may change places. -/
theorem act_tick (h : m.Untimed a) :
    m.tick.act a = (m.act a).tick ∧ m.tick.stepResults [a] = m.stepResults [a] := by
  obtain ⟨hplay, hsteps⟩ := h
  cases a with
  | step =>
    have hexec := hsteps rfl
    obtain ⟨hdelay, hsound⟩ := timers_step hexec
    have hstep := step_withTimers hexec m.tick.delayTimer m.tick.soundTimer
    rw [← tick_eq] at hstep
    constructor
    · rw [act, act, hstep]
      exact (tick_congr hdelay hsound).symm
    · rw [stepResults, stepResults, hstep]
      rfl
  | tick => exact ⟨rfl, rfl⟩
  | setKey k pressed =>
    refine ⟨?_, rfl⟩
    have hcompletes : m.tick.completes k pressed = m.completes k pressed := rfl
    rw [act, act, setKey, setKey, hcompletes]
    cases m.completes k pressed <;> rfl
  | loadRom | loadFont | reset | assign => cases hplay

theorem stepResults_cons (m : Machine) (a : HostAction) (history : List HostAction) :
    m.stepResults (a :: history) = m.stepResults [a] ++ (m.act a).stepResults history := by
  cases a <;> rfl

theorem timers_act (h : m.Untimed a) :
    (m.act a).delayTimer.toNat = m.delayTimer.toNat - [a].countP HostAction.isTick ∧
      (m.act a).soundTimer.toNat = m.soundTimer.toNat - [a].countP HostAction.isTick := by
  obtain ⟨hplay, hsteps⟩ := h
  cases a with
  | step =>
    obtain ⟨hdelay, hsound⟩ := timers_step (hsteps rfl)
    exact ⟨congrArg UInt8.toNat hdelay, congrArg UInt8.toNat hsound⟩
  | tick => exact m.toNat_tick
  | setKey k pressed =>
    rcases m.setKey_cases k pressed with hs | ⟨r, -, hs⟩ <;> rw [act, hs] <;> exact ⟨rfl, rfl⟩
  | loadRom | loadFont | reset | assign => cases hplay

/-- A tick in advance makes no difference to what is executed. -/
theorem along_tick : Along Untimed m.tick history ↔ Along Untimed m history := by
  induction history generalizing m with
  | nil => exact Iff.rfl
  | cons a history ih =>
    refine and_congr_right fun ha : m.Untimed a => ?_
    rw [(act_tick ha).1]
    exact ih

theorem along_filter : Along Untimed m (history.filter fun a => !a.isTick) ↔
    Along Untimed m history := by
  induction history generalizing m with
  | nil => exact Iff.rfl
  | cons a history ih =>
    cases htick : a.isTick with
    | false =>
      rw [List.filter_cons_of_pos (by simp [htick])]
      exact and_congr_right fun _ => ih
    | true =>
      obtain rfl := HostAction.eq_tick htick
      have huntimed : m.Untimed .tick := ⟨trivial, nofun⟩
      rw [List.filter_cons_of_neg (by simp [htick]), ih]
      exact along_tick.symm.trans (and_iff_right huntimed).symm

/-- A tick may be put off to the end. -/
theorem Along.tick_last (h : Along Untimed m history) :
    m.tick.acts history = (m.acts history).tick ∧
      m.tick.stepResults history = m.stepResults history := by
  induction history generalizing m with
  | nil => exact ⟨rfl, rfl⟩
  | cons a history ih =>
    obtain ⟨ha, hrest⟩ := h
    obtain ⟨hact, hresult⟩ := act_tick ha
    obtain ⟨hacts, hresults⟩ := ih hrest
    constructor
    · rw [acts_cons, hact, hacts, acts_cons]
    · rw [stepResults_cons, hact, hresult, hresults, ← stepResults_cons]

/-- All ticks may be put off to the end. -/
theorem Along.ticks_last (h : Along Untimed m history) :
    m.acts history = (m.acts (history.filter fun a => !a.isTick)).tickN
        (history.countP HostAction.isTick) ∧
      m.stepResults history = m.stepResults (history.filter fun a => !a.isTick) := by
  induction history generalizing m with
  | nil => exact ⟨rfl, rfl⟩
  | cons a history ih =>
    obtain ⟨hacts, hresults⟩ := ih h.2
    cases htick : a.isTick with
    | false =>
      rw [List.filter_cons_of_pos (by simp [htick]), List.countP_cons_of_neg (by simp [htick])]
      refine ⟨hacts, ?_⟩
      rw [stepResults_cons, hresults, ← stepResults_cons]
    | true =>
      obtain rfl := HostAction.eq_tick htick
      obtain ⟨hlast, hanswers⟩ := (along_filter.mpr (along_tick.mp h.2)).tick_last
      rw [List.filter_cons_of_neg (by simp [htick]), List.countP_cons_of_pos htick]
      constructor
      · rw [acts_cons, hacts]
        exact congrArg (Machine.tickN _) hlast
      · exact hresults.trans hanswers

theorem Along.timers (h : Along Untimed m history) :
    (m.acts history).delayTimer.toNat =
        m.delayTimer.toNat - history.countP HostAction.isTick ∧
      (m.acts history).soundTimer.toNat =
        m.soundTimer.toNat - history.countP HostAction.isTick := by
  induction history generalizing m with
  | nil => exact ⟨rfl, rfl⟩
  | cons a history ih =>
    obtain ⟨ha, hrest⟩ := h
    obtain ⟨hdelay, hsound⟩ := ih hrest
    obtain ⟨hdelay', hsound'⟩ := timers_act ha
    have hcount : (a :: history).countP HostAction.isTick =
        [a].countP HostAction.isTick + history.countP HostAction.isTick := by
      rw [← List.countP_append, List.singleton_append]
    rw [hcount, acts_cons, hdelay, hsound, hdelay', hsound']
    exact ⟨Nat.sub_sub .., Nat.sub_sub ..⟩

/-- Two histories have the same steps and keys in the same order, and equally many ticks. If no step
of one of them uses a timer, then their steps answer the same, they end with the same machine, and
its timers are down by the number of ticks, or at zero. -/
theorem tick_placement_immaterial (h : Along Untimed m history)
    (hsame : history'.filter (fun a => !a.isTick) = history.filter fun a => !a.isTick)
    (hticks : history'.countP HostAction.isTick = history.countP HostAction.isTick) :
    m.stepResults history' = m.stepResults history ∧ m.acts history' = m.acts history ∧
      (m.acts history).delayTimer.toNat =
        m.delayTimer.toNat - history.countP HostAction.isTick ∧
      (m.acts history).soundTimer.toNat =
        m.soundTimer.toNat - history.countP HostAction.isTick := by
  have h' : Along Untimed m history' := by
    rw [← along_filter, hsame]
    exact along_filter.mpr h
  obtain ⟨hacts, hresults⟩ := h.ticks_last
  obtain ⟨hacts', hresults'⟩ := h'.ticks_last
  refine ⟨?_, ?_, h.timers⟩
  · rw [hresults', hsame, hresults]
  · rw [hacts', hsame, hticks, hacts]

theorem untimed_of_executes {i : Instruction} (h : m.Executes i) (hi : ¬i.UsesTimer) :
    m.Untimed .step := by
  refine ⟨trivial, ?_⟩
  intro _ j hj
  obtain rfl := h.unique hj
  exact hi

/-- A step that is refused or waits executes nothing. -/
theorem untimed_of_idle (h : m.fault ≠ none ∨ m.awaiting ≠ none) : m.Untimed .step := by
  refine ⟨trivial, ?_⟩
  rintro - i ⟨hf, hw, -⟩
  exact absurd hf (h.resolve_right fun h => h hw)

/-- A machine that is about to ask for a key and then to return from nowhere, with both timers
running. -/
def askingThenReturning : Machine := { powerOn {} 0 with
  memory := ⟨overlay Memory.zero.bytes 0x200 [0x60, 0x05, 0xF1, 0x0A, 0x00, 0xEE]⟩
  delayTimer := 2, soundTimer := 9 }

/-- A step, a wait, a key that ends it, a fault and a refused step, with the ticks in advance. -/
def ticksFirst : List HostAction :=
  [.tick, .tick, .tick, .step, .step, .step, .setKey 7 true, .step, .step]

/-- The same with the ticks in between. -/
def ticksBetween : List HostAction :=
  [.step, .tick, .step, .step, .setKey 7 true, .tick, .step, .tick, .step]

theorem tick_placement_immaterial_askingThenReturning :
    let m := askingThenReturning
    Along Untimed m ticksFirst ∧
      m.stepResults ticksBetween = m.stepResults ticksFirst ∧
      m.stepResults ticksFirst = [.ok .advanced, .ok (.waiting 1), .ok (.waiting 1),
        .error (.fault .stackUnderflow), .error .halted] ∧
      m.acts ticksBetween = m.acts ticksFirst ∧
      (m.acts ticksFirst).delayTimer.toNat = 0 ∧ (m.acts ticksFirst).soundTimer.toNat = 6 := by
  intro m
  let asking := m.act .step
  let woken := m.acts [.step, .step, .step, .setKey 7 true]
  obtain ⟨hset, hask, hleave⟩ :
      (m.fault = none ∧ m.awaiting = none ∧ m.nextWord = .ok 0x6005) ∧
      (asking.fault = none ∧ asking.awaiting = none ∧ asking.nextWord = .ok 0xF10A) ∧
      woken.fault = none ∧ woken.awaiting = none ∧ woken.nextWord = .ok 0x00EE := by
    decide +kernel
  obtain ⟨hwait, hrefused, hanswers⟩ :
      (asking.act .step).awaiting ≠ none ∧ (woken.act .step).fault ≠ none ∧
      m.stepResults ticksFirst = [.ok .advanced, .ok (.waiting 1), .ok (.waiting 1),
        .error (.fault .stackUnderflow), .error .halted] := by
    decide +kernel
  have huntimed : Along Untimed m (ticksFirst.filter fun a => !a.isTick) := by
    refine ⟨?set, ?ask, ?wait, ⟨trivial, nofun⟩, ?leave, ?refused, trivial⟩
    case set =>
      exact untimed_of_executes ⟨hset.1, hset.2.1, _, hset.2.2, rfl⟩ nofun
    case ask =>
      exact untimed_of_executes ⟨hask.1, hask.2.1, _, hask.2.2, rfl⟩ nofun
    case wait => exact untimed_of_idle (.inr hwait)
    case leave =>
      exact untimed_of_executes ⟨hleave.1, hleave.2.1, _, hleave.2.2, rfl⟩ nofun
    case refused => exact untimed_of_idle (.inl hrefused)
  have halong : Along Untimed m ticksFirst := along_filter.mp huntimed
  obtain ⟨hresults, hacts, hdelay, hsound⟩ :=
    @tick_placement_immaterial m ticksFirst ticksBetween halong rfl rfl
  exact ⟨halong, hresults, hanswers, hacts, hdelay, hsound⟩

end Machine

end Chip8
