import Chip8.Proofs.History

/-!
Halted machines. Once a fault is latched every step is refused, and of all that a host can do to
the machine a reset alone lets it go on. The fault ended any wait for a key, so that not even a key
reaches a register.
-/

namespace Chip8

namespace HostAction

/-- An action that neither resets the machine nor overwrites a part of it. -/
def Continues : HostAction → Prop
  | .step | .setKey .. | .tick | .loadRom _ | .loadFont _ => True
  | .reset | .assign .. => False

/-- What an action may move of a halted machine: a key the keypad, a tick the timers, a load the
memory and what is loaded, a program the program counter too. A step moves nothing. -/
def Confined (m after : Machine) : HostAction → Prop
  | .step => after = m
  | .setKey .. => after = { m with keypad := after.keypad }
  | .tick => after = { m with delayTimer := after.delayTimer, soundTimer := after.soundTimer }
  | .loadRom _ => after = { m with rom := after.rom, memory := after.memory, pc := after.pc }
  | .loadFont _ => after = { m with font := after.font, memory := after.memory }
  | .reset | .assign .. => True

end HostAction

namespace Machine

variable {config : Config} {m : Machine} {cause : Fault} {history : List HostAction}

/-- A halted machine waits for no key. -/
theorem Bounded.awaiting_eq_none (h : Bounded config m) (hf : m.fault = some cause) :
    m.awaiting = none := by
  rcases h.fault_or_wait with hnone | hw
  · rw [hf] at hnone
    cases hnone
  · exact hw

theorem confined_of_halted (hf : m.fault = some cause) (hw : m.awaiting = none)
    (a : HostAction) : a.Confined m (m.act a) := by
  cases a with
  | step => exact congrArg Step.machine (step_of_fault hf)
  | setKey k pressed =>
    rw [act, setKey_of_idle hw]
    rfl
  | loadRom rom => rcases m.act_loadRom rom with hs | ⟨-, hs⟩ <;> rw [hs] <;> rfl
  | tick | loadFont => rfl
  | reset | assign => trivial

/-- Without a reset a fault stays for good. -/
theorem fault_act (hf : m.fault = some cause) (hw : m.awaiting = none) {a : HostAction}
    (ha : a ≠ .reset) : (m.act a).fault = some cause := by
  have hconfined := confined_of_halted hf hw a
  cases a with
  | step | setKey | tick | loadRom | loadFont =>
    rw [hconfined]
    exact hf
  | reset => exact absurd rfl ha
  | assign target value =>
    rcases m.act_assign target value with hs | hs
    · rw [hs]
      exact hf
    · rw [(Debugger.of_setTarget hs).2]
      exact hf

/-- A machine without a fault is refused no step. -/
theorem step_ne_halted (hf : m.fault = none) : m.step.result ≠ .error .halted := by
  rcases step_cases m with ⟨cause, hcause, -⟩ | ⟨r, -, -, hs⟩ | ⟨o, after, -, -, -, hs⟩ |
      ⟨cause, after, -, -, -, hs⟩
  · rw [hf] at hcause
    cases hcause
  all_goals
    rw [hs]
    intro h
    cases h

theorem acts_of_halted (hf : m.fault = some cause) (hw : m.awaiting = none)
    (h : ∀ a ∈ history, a.Continues) :
    ∃ font rom memory pc delay sound pad, m.acts history = { m with
      font, rom, memory, pc, delayTimer := delay, soundTimer := sound, keypad := pad } := by
  apply (along_const.mpr h).preserves (P := fun n => ∃ font rom memory pc delay sound pad,
    n = { m with font, rom, memory, pc, delayTimer := delay, soundTimer := sound, keypad := pad })
  · exact ⟨_, _, _, _, _, _, _, rfl⟩
  · rintro n a ⟨font, rom, memory, pc, delay, sound, pad, hn⟩ ha
    have hconfined := confined_of_halted (m := n) (by rw [hn]; exact hf) (by rw [hn]; exact hw) a
    cases a with
    | step | setKey | tick | loadRom | loadFont =>
      rw [hconfined, hn]
      exact ⟨_, _, _, _, _, _, _, rfl⟩
    | reset | assign => cases ha

/-- After a fault every step is refused and the fault stays, whatever the host loads, presses or
ticks. Nothing moves but what each action is there to move, and a reset alone lets the machine go
on. -/
theorem halted_until_reset (h : m.Reachable config) (hf : m.fault = some cause)
    (hh : ∀ a ∈ history, a.Continues) :
    let halted := m.acts history
    halted.step = ⟨.error .halted, halted⟩ ∧ halted.fault = some cause ∧
      halted = { m with
        font := halted.font, rom := halted.rom, memory := halted.memory, pc := halted.pc
        delayTimer := halted.delayTimer, soundTimer := halted.soundTimer
        keypad := halted.keypad } ∧
      (∀ a : HostAction, a.Confined halted (halted.act a)) ∧
      ∀ a, (halted.act a).step.result = .error .halted ↔ a ≠ .reset := by
  have hw := h.bounded.awaiting_eq_none hf
  obtain ⟨font, rom, memory, pc, delay, sound, pad, hhalted⟩ := acts_of_halted hf hw hh
  have hfault : (m.acts history).fault = some cause := by
    rw [hhalted]
    exact hf
  have hidle : (m.acts history).awaiting = none := by
    rw [hhalted]
    exact hw
  refine ⟨step_of_fault hfault, hfault, ?_, confined_of_halted hfault hidle, ?_⟩
  · rw [hhalted]
  · intro a
    constructor
    · rintro hresult rfl
      exact step_ne_halted rfl hresult
    · intro ha
      rw [step_of_fault (fault_act hfault hidle ha)]

/-- A machine whose program returned from nowhere. -/
def returnedFromNowhere : Machine := ((powerOn {} 0).act (.loadRom [0x00, 0xEE])).act .step

/-- Another program moves the program counter, and still no step is made. -/
theorem halted_until_reset_otherProgram :
    let halted := returnedFromNowhere.acts [.loadRom [0x60, 0x01], .setKey 3 true, .tick]
    returnedFromNowhere.Reachable {} ∧ returnedFromNowhere.fault = some .stackUnderflow ∧
      halted.step = ⟨.error .halted, halted⟩ ∧ halted.fault = some .stackUnderflow ∧
      (halted.act (.assign .pc 0x200)).step.result = .error .halted ∧
      (halted.act .reset).step.result ≠ .error .halted := by
  have hbuild : Machine.build {} 0 = .ok (powerOn {} 0) := rfl
  have hreachable : returnedFromNowhere.Reachable {} := ((Reachable.build hbuild).act _).act _
  have hf : returnedFromNowhere.fault = some .stackUnderflow := by decide +kernel
  have hh : ∀ a ∈ [HostAction.loadRom [0x60, 0x01], .setKey 3 true, .tick], a.Continues := by
    simp [HostAction.Continues]
  obtain ⟨hstep, hfault, -, -, hreset⟩ := halted_until_reset hreachable hf hh
  refine ⟨hreachable, hf, hstep, hfault, (hreset _).mpr nofun, ?_⟩
  intro hhalted
  exact (hreset .reset).mp hhalted rfl

end Machine

end Chip8
