import Chip8.Proofs.History

/-!
Waiting for a key. Until a key that is up goes down, a waiting machine answers every step that it
waits, and nothing of it moves but the timers and the keypad. The key that goes down is the one
that is stored, and it ends the wait.
-/

namespace Chip8.Machine

/-- An action of play that presses no key that is up. It may release a key or press a held one. -/
def Quiet (m : Machine) (a : HostAction) : Prop :=
  a.InPlay ∧ ∀ k, a = .setKey k true → m.keypad.isDown k = true

/-- An action of play that asks for no key. -/
def Unasking (m : Machine) (a : HostAction) : Prop :=
  a.InPlay ∧ (a = .step → ∀ x, ¬m.Executes (.awaitKey x))

variable {m : Machine} {x : Nibble} {history : List HostAction}

theorem Executes.step_awaitKey (h : m.Executes (.awaitKey x)) :
    m.step = ⟨.ok (.waiting x), { m.pastFetch with awaiting := some x }⟩ :=
  h.step_ok rfl

/-- While no key goes down, a waiting machine keeps all but its timers and its keypad. -/
theorem Along.waiting (h : Along Quiet m history) (hf : m.fault = none)
    (hw : m.awaiting = some x) :
    ∃ delay sound pad, m.acts history =
      { m with delayTimer := delay, soundTimer := sound, keypad := pad } := by
  apply h.preserves (P := fun n => ∃ delay sound pad,
    n = { m with delayTimer := delay, soundTimer := sound, keypad := pad })
  · exact ⟨_, _, _, rfl⟩
  · rintro n a ⟨delay, sound, pad, rfl⟩ ⟨hplay, hquiet⟩
    cases a with
    | step =>
      have hs := step_of_awaiting
        (m := { m with delayTimer := delay, soundTimer := sound, keypad := pad }) hf hw
      exact ⟨delay, sound, pad, congrArg Step.machine hs⟩
    | tick => exact ⟨_, _, pad, rfl⟩
    | setKey k pressed =>
      have hdown : pressed = true → pad.isDown k = true := by
        rintro rfl
        exact hquiet k rfl
      have hedge := Keypad.isEdge_eq_false hdown
      exact ⟨delay, sound, pad.set k pressed, setKey_of_not_edge hedge⟩
    | loadRom | loadFont | reset | assign => cases hplay

/-- A machine that waits for nothing and is asked for no key goes on waiting for nothing. -/
theorem Along.idle (h : Along Unasking m history) (hw : m.awaiting = none) :
    (m.acts history).awaiting = none := by
  apply h.preserves (P := fun n => n.awaiting = none) hw
  rintro n a hn ⟨hplay, hasks⟩
  cases a with
  | step => exact step_awaiting hn (hasks rfl)
  | tick => exact hn
  | setKey k pressed =>
    rw [act, setKey_of_idle hn]
    exact hn
  | loadRom | loadFont | reset | assign => cases hplay

/-- A held key that is let go and pressed again ends the wait, and the keypad is as before. -/
theorem setKey_release_press {k : Nibble} (hw : m.awaiting = some x)
    (hdown : m.keypad.isDown k = true) : (m.setKey k false).setKey k true =
      { m with v := setAt m.v x k.toByte, awaiting := none } := by
  have hrelease : m.setKey k false = { m with keypad := m.keypad.set k false } :=
    setKey_of_not_edge rfl
  have hup : (m.keypad.set k false).isDown k = false := by rw [Keypad.isDown_set, if_pos rfl]
  have hpress := setKey_of_edge (m := { m with keypad := m.keypad.set k false }) hw hup
  have hpad : (m.keypad.set k false).set k true = m.keypad := by
    rw [Keypad.set_set, ← hdown, Keypad.set_isDown]
  rw [hrelease, hpress, hpad]

/-- From the step that asks for a key to the first key that goes down, each step answers that the
machine waits, whatever the program counter and memory hold. That key is stored, also one that was
held and is let go first. From then on keys are only recorded, until another is asked for. -/
theorem wait_ends_with_first_edge (h : m.Executes (.awaitKey x)) :
    m.step = ⟨.ok (.waiting x), { m.pastFetch with awaiting := some x }⟩ ∧
    ∀ before, Along Quiet m.step.machine before →
      let waiting := m.step.machine.acts before
      waiting = { m.step.machine with
        delayTimer := waiting.delayTimer, soundTimer := waiting.soundTimer
        keypad := waiting.keypad } ∧
      (∀ memory pc, ({ waiting with memory, pc } : Machine).step =
        ⟨.ok (.waiting x), { waiting with memory, pc }⟩) ∧
      (∀ k, waiting.keypad.isDown k = true → (waiting.setKey k false).setKey k true =
        { waiting with v := setAt waiting.v x k.toByte, awaiting := none }) ∧
      ∀ k, waiting.keypad.isDown k = false →
        waiting.setKey k true = { waiting with
          keypad := waiting.keypad.set k true, v := setAt waiting.v x k.toByte
          awaiting := none } ∧
        ∀ later, Along Unasking (waiting.setKey k true) later →
          let resumed := (waiting.setKey k true).acts later
          ∀ j pressed,
            resumed.setKey j pressed = { resumed with keypad := resumed.keypad.set j pressed } := by
  have hstep := h.step_awaitKey
  have hf : m.step.machine.fault = none := by
    rw [hstep]
    exact h.1
  have hw : m.step.machine.awaiting = some x := by rw [hstep]
  refine ⟨hstep, ?_⟩
  intro before hbefore
  obtain ⟨delay, sound, pad, hwaiting⟩ := hbefore.waiting hf hw
  generalize m.step.machine = asked at hf hw hwaiting ⊢
  have hkept : asked.acts before = { asked with
      delayTimer := (asked.acts before).delayTimer, soundTimer := (asked.acts before).soundTimer
      keypad := (asked.acts before).keypad } := by rw [hwaiting]
  have hfree : (asked.acts before).fault = none := by
    rw [hwaiting]
    exact hf
  have hwaits : (asked.acts before).awaiting = some x := by
    rw [hwaiting]
    exact hw
  clear hwaiting
  generalize asked.acts before = waiting at hkept hfree hwaits ⊢
  refine ⟨hkept, ?_, ?_, ?_⟩
  · intro memory pc
    exact step_of_awaiting hfree hwaits
  · intro k hdown
    exact setKey_release_press hwaits hdown
  intro k hup
  have hedge := setKey_of_edge hwaits hup
  refine ⟨hedge, ?_⟩
  intro later hlater resumed j pressed
  have hidle := hlater.idle (by rw [hedge])
  exact setKey_of_idle hidle j pressed

/-- A machine about to ask for a key into V3 while key 5 is held. -/
def askingForKey : Machine := { powerOn {} 0 with
  memory := ⟨overlay Memory.zero.bytes 0x200 [0xF3, 0x0A, 0x61, 0x07]⟩
  keypad := Keypad.idle.set 5 true }

/-- Key 5 pressed once more where it is held, then let go. -/
def lettingGo : List HostAction := [.setKey 5 true, .step, .setKey 5 false, .tick, .step]

/-- The press that follows is the one that counts. -/
theorem wait_ends_with_first_edge_lettingGo :
    let waiting := askingForKey.step.machine.acts lettingGo
    let resumed := waiting.setKey 5 true
    askingForKey.Executes (.awaitKey 3) ∧ Along Quiet askingForKey.step.machine lettingGo ∧
      waiting.step = ⟨.ok (.waiting 3), waiting⟩ ∧ waiting.keypad.isDown 5 = false ∧
      resumed.v = setAt waiting.v 3 5 ∧ Along Unasking resumed [.step] ∧
      ((resumed.acts [.step]).setKey 6 true).v = setAt resumed.v 1 7 := by
  have hasking : askingForKey.Executes (.awaitKey 3) :=
    ⟨rfl, rfl, 0xF30A, by decide +kernel, by decide +kernel⟩
  have hquiet : Along Quiet askingForKey.step.machine lettingGo := by
    have hdown : askingForKey.step.machine.keypad.isDown 5 = true := by decide +kernel
    simpa [lettingGo, Along, Quiet, HostAction.InPlay] using hdown
  have hup : (askingForKey.step.machine.acts lettingGo).keypad.isDown 5 = false := by
    decide +kernel
  have hword : ((askingForKey.step.machine.acts lettingGo).setKey 5 true).nextWord =
      .ok 0x6107 := by decide +kernel
  have hunasking : Along Unasking
      ((askingForKey.step.machine.acts lettingGo).setKey 5 true) [.step] := by
    refine ⟨⟨trivial, ?_⟩, trivial⟩
    rintro - x ⟨-, -, word, hword', hx⟩
    obtain rfl := Except.ok.inj (hword.symm.trans hword')
    have hdecode : Instruction.decode 0x6107 = .loadByte 1 7 := by decide +kernel
    rw [hdecode] at hx
    cases hx
  obtain ⟨-, hsteps, -, hedges⟩ := (wait_ends_with_first_edge hasking).2 _ hquiet
  obtain ⟨hedge, hlater⟩ := hedges 5 hup
  refine ⟨hasking, hquiet, ?_, hup, ?_, hunasking, ?_⟩
  · generalize askingForKey.step.machine.acts lettingGo = waiting at hsteps ⊢
    exact hsteps waiting.memory waiting.pc
  · rw [hedge]
    rfl
  · rw [hlater _ hunasking]
    decide +kernel

end Chip8.Machine
