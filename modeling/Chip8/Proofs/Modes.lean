import Chip8.Debugger.Terminal
import Chip8.Proofs.Stopping

/-!
The two modes of a terminal. While the machine runs a key event reaches the keypad and nothing of
what is typed at the prompt; while it is paused an event reaches the prompt and presses no key of
the keypad, whatever command a line comes to.
-/

namespace Chip8

/-- What can happen to a machine that its host neither loads nor sends keys. -/
def HostAction.Unattended : HostAction → Prop
  | .step | .tick | .reset | .assign .. => True
  | .setKey .. | .loadRom _ | .loadFont _ => False

namespace Machine

variable {m : Machine} {a : HostAction} {history : List HostAction} {k : Nibble}

theorem keypad_setKey (m : Machine) (k : Nibble) (pressed : Bool) :
    (m.setKey k pressed).keypad = m.keypad.set k pressed := by
  rcases m.setKey_cases k pressed with hs | ⟨r, -, hs⟩ <;> rw [hs]

theorem keypad_step (m : Machine) : m.step.machine.keypad = m.keypad := by
  rcases m.step_row with ⟨hs, -⟩ | ⟨i, -, -, hrow⟩
  · rw [hs]
  · obtain ⟨-, -, -, -, -, -, hdown, -⟩ := hrow.frame
    exact Keypad.ext (vector_ext_get (congrFun hdown))

/-- No key goes down by itself. -/
theorem isDown_act (h : a.Unattended) (hk : (m.act a).keypad.isDown k = true) :
    m.keypad.isDown k = true := by
  cases a with
  | step => rwa [act, keypad_step] at hk
  | tick => exact hk
  | reset =>
    have hup : (m.act .reset).keypad.isDown k = false := Keypad.isDown_idle k
    cases hup.symm.trans hk
  | assign target value =>
    rcases m.act_assign target value with hs | hs
    · rwa [hs] at hk
    · rwa [(Debugger.of_setTarget hs).2] at hk
  | setKey | loadRom | loadFont => cases h

theorem isDown_acts (h : ∀ a ∈ history, a.Unattended)
    (hk : (m.acts history).keypad.isDown k = true) : m.keypad.isDown k = true := by
  induction history generalizing m with
  | nil => exact hk
  | cons a history ih =>
    obtain ⟨ha, hrest⟩ := List.forall_mem_cons.mp h
    exact isDown_act ha (ih hrest hk)

end Machine

namespace Debugger

variable {d after : Debugger} {fuel : Nat} {dt : Float32} {result : Except StepError UpdateOutcome}

theorem stepMachine_acts (n : Nat) (m : Machine) :
    ∃ count, (stepMachine n m).2 = m.acts (List.replicate count .step) := by
  induction n generalizing m with
  | zero => exact ⟨0, rfl⟩
  | succ n ih =>
    rw [stepMachine]
    split
    · exact ⟨1, rfl⟩
    · exact ⟨1, rfl⟩
    all_goals
      obtain ⟨count, hsteps⟩ := ih m.step.machine
      exact ⟨count + 1, hsteps⟩

/-- A command sends the machine no key. -/
theorem perform_acts (d : Debugger) (c : Command) :
    ∃ history, (∀ a ∈ history, a.Unattended) ∧
      (d.perform c).2.machine = d.machine.acts history := by
  cases c with
  | step count =>
    obtain ⟨made, hsteps⟩ := stepMachine_acts count.toNat d.machine
    refine ⟨List.replicate made .step, ?_, ?_⟩
    · intro a ha
      rw [List.eq_of_mem_replicate ha]
      trivial
    · rw [perform, ← hsteps]
      rcases stepMachine count.toNat d.machine with ⟨_ | _, m⟩ <;> rfl
  | set target value =>
    refine ⟨[.assign target value], by simp [HostAction.Unattended], ?_⟩
    rw [perform, Machine.acts_cons, Machine.act]
    rcases setTarget d.machine target value with e | m <;> rfl
  | reset => exact ⟨[.reset], by simp [HostAction.Unattended], rfl⟩
  | breakpoint action =>
    refine ⟨[], by simp, ?_⟩
    cases action <;> rfl
  | dump | listing =>
    refine ⟨[], by simp, ?_⟩
    rw [perform]
    split
    · split <;> rfl
    · rfl
  | run | pause | quit => exact ⟨[], by simp, rfl⟩

/-- A poll sends the machine no key. -/
theorem poll_acts (h : d.poll fuel dt = some (result, after)) :
    ∃ history, (∀ a ∈ history, a.Unattended) ∧ after.machine = d.machine.acts history := by
  rcases poll_cases h with ⟨-, hupdate, -, -⟩ | ⟨-, -, rfl⟩
  · obtain ⟨ticks, met, hupdates⟩ := Runner.updates_of_updateUntil hupdate
    refine ⟨List.replicate ticks .tick ++ List.replicate met.length .step, ?_, ?_⟩
    · intro a ha
      rcases List.mem_append.mp ha with ha | ha <;> rw [List.eq_of_mem_replicate ha] <;> trivial
    · have hmachine : after.machine = _ := hupdates.spends.machine_eq
      rw [hmachine, ← Runner.acts_replicate_tick]
      exact (List.foldl_append ..).symm
  · exact ⟨[], by simp, rfl⟩

end Debugger

/-- Ctrl-C, be it pressed, held or let go. -/
abbrev KeyEvent.Interrupts (e : KeyEvent) : Prop := e.code = .char 'c' ∧ e.control = true

namespace Terminal

/-- The key of the keypad that an event presses. -/
def padKey? (t : Terminal) (e : KeyEvent) : Option Nibble :=
  if t.debugger.running = true ∧ e.kind = .press ∧ ¬e.Interrupts then
    match e.code with
    | .char c => KeypadLayout.ofChar? c
    | _ => none
  else none

/-- No key is pressed, let go or forgotten on the way from one terminal to the other, though a reset
may let go of all. -/
structure HandsOff (t after : Terminal) : Prop where
  held_eq : after.held = t.held
  acts : ∃ history, (∀ a ∈ history, HostAction.Unattended a) ∧
    after.machine = t.machine.acts history

variable {t after : Terminal} {e : KeyEvent} {k : Nibble}

theorem HandsOff.isDown (h : t.HandsOff after) (hk : after.machine.keypad.isDown k = true) :
    t.machine.keypad.isDown k = true := by
  obtain ⟨history, hunattended, hacts⟩ := h.acts
  rw [hacts] at hk
  exact Machine.isDown_acts hunattended hk

theorem handsOff_of_eq (hheld : after.held = t.held) (hmachine : after.machine = t.machine) :
    t.HandsOff after := ⟨hheld, [], by simp, hmachine⟩

theorem handsOff_runCommand (t : Terminal) (c : Command) : t.HandsOff (t.runCommand c) := by
  obtain ⟨history, hunattended, hacts⟩ := t.debugger.perform_acts c
  rw [runCommand]
  split <;> rename_i hp <;> rw [hp] at hacts <;> exact ⟨rfl, history, hunattended, hacts⟩

theorem handsOff_submit (t : Terminal) : t.HandsOff t.submit := by
  have hcommand (c : Command) : t.HandsOff ({ t with input := "" }.runCommand c) :=
    have h := handsOff_runCommand { t with input := "" } c
    ⟨h.held_eq, h.acts⟩
  unfold submit
  dsimp only
  split
  · split
    · exact hcommand _
    · exact handsOff_of_eq rfl rfl
  · split
    · exact hcommand _
    · exact handsOff_of_eq rfl rfl

theorem handsOff_tick {fuel : Nat} {dt : Float32} (h : t.tick fuel dt = some after) :
    t.HandsOff after := by
  obtain ⟨⟨result, debugger⟩, hpoll, rfl⟩ := Option.map_eq_some_iff.mp h
  exact ⟨rfl, Debugger.poll_acts hpoll⟩

theorem onKey_interrupt (h : e.Interrupts) (now : Nat) : t.onKey e now = { t with quit := true } :=
  if_pos h

theorem onKey_not_press (hi : ¬e.Interrupts) (hp : e.kind ≠ .press) (now : Nat) :
    t.onKey e now = t := by
  rw [onKey, if_neg hi, if_pos hp]

theorem onKey_running (hi : ¬e.Interrupts) (hp : e.kind = .press)
    (hr : t.debugger.running = true) (now : Nat) :
    t.onKey e now = t.onRunningKey e.code now := by
  rw [onKey, if_neg hi, if_neg (not_not.mpr hp), if_pos hr]

theorem onKey_paused (hi : ¬e.Interrupts) (hp : e.kind = .press)
    (hr : t.debugger.running = false) (now : Nat) : t.onKey e now = t.onPromptKey e.code := by
  rw [onKey, if_neg hi, if_neg (not_not.mpr hp), if_neg (by simp [hr])]

/-- A key of the keypad goes down in the machine, and the terminal remembers when. -/
theorem onKey_of_padKey? (h : t.padKey? e = some k) (now : Nat) :
    t.onKey e now = { t with
      debugger := t.debugger.withMachine (t.machine.setKey k true), held := t.held.press k now } := by
  unfold padKey? at h
  split at h
  · rename_i hpress
    obtain ⟨hr, hp, hi⟩ := hpress
    rw [onKey_running hi hp hr]
    split at h
    · rename_i c hc
      rw [hc, onRunningKey, h]
      rfl
    · cases h
  · cases h

/-- What a key event does to a terminal whose machine runs. -/
inductive Steers (t : Terminal) (e : KeyEvent) (now : Nat) : Terminal → Prop
  | ignored (hi : ¬e.Interrupts)
      (hp : e.kind = .press → e.code ≠ .escape ∧ t.padKey? e = none) : Steers t e now t
  | quits (h : e.Interrupts) : Steers t e now { t with quit := true }
  | pauses (hp : e.kind = .press) (h : e.code = .escape) :
      Steers t e now { t with debugger.running := false, output := "Paused" }
  | presses {k : Nibble} (h : t.padKey? e = some k)
      (hw : t.machine.awaiting = none ∨ t.machine.keypad.isDown k = true) :
      Steers t e now { t with
        debugger := t.debugger.withMachine
          { t.machine with keypad := t.machine.keypad.set k true }
        held := t.held.press k now }
  /-- The key that goes down is the one that the machine waits for. -/
  | resumes {k r : Nibble} (h : t.padKey? e = some k) (hw : t.machine.awaiting = some r)
      (hup : t.machine.keypad.isDown k = false) :
      Steers t e now { t with
        debugger := t.debugger.withMachine
          { t.machine with
            keypad := t.machine.keypad.set k true, v := setAt t.machine.v r k.toByte
            awaiting := none }
        held := t.held.press k now }

theorem steers_of_padKey? (h : t.padKey? e = some k) (now : Nat) :
    t.Steers e now (t.onKey e now) := by
  rw [onKey_of_padKey? h]
  cases hdown : t.machine.keypad.isDown k with
  | true =>
    rw [Machine.setKey_of_not_edge (Keypad.isEdge_eq_false fun _ => hdown)]
    exact .presses h (.inr hdown)
  | false =>
    cases hw : t.machine.awaiting with
    | none =>
      rw [Machine.setKey_of_idle hw]
      exact .presses h (.inl hw)
    | some r =>
      rw [Machine.setKey_of_edge hw hdown]
      exact .resumes h hw hdown

theorem steers_onKey (hr : t.debugger.running = true) (e : KeyEvent) (now : Nat) :
    t.Steers e now (t.onKey e now) := by
  cases hk : t.padKey? e with
  | some k => exact steers_of_padKey? hk now
  | none =>
    by_cases hi : e.Interrupts
    · rw [onKey_interrupt hi]
      exact .quits hi
    by_cases hp : e.kind = .press
    · rw [onKey_running hi hp hr]
      cases hc : e.code with
      | escape => exact .pauses hp hc
      | char c =>
        have hnone : KeypadLayout.ofChar? c = none := by
          have h := hk
          rwa [padKey?, if_pos ⟨hr, hp, hi⟩, hc] at h
        rw [onRunningKey, hnone]
        exact .ignored hi fun _ => ⟨by rw [hc]; nofun, hk⟩
      | enter | backspace | other => exact .ignored hi fun _ => ⟨by rw [hc]; nofun, hk⟩
    · rw [onKey_not_press hi hp]
      exact .ignored hi fun h => absurd h hp

/-- An event that presses no key of the keypad sends the machine none. -/
theorem handsOff_onKey (h : t.padKey? e = none) (now : Nat) : t.HandsOff (t.onKey e now) := by
  cases hr : t.debugger.running with
  | true =>
    have hsteers := steers_onKey hr e now
    generalize t.onKey e now = after at hsteers ⊢
    cases hsteers with
    | ignored | quits | pauses => exact handsOff_of_eq rfl rfl
    | presses hk | resumes hk => cases h.symm.trans hk
  | false =>
    by_cases hi : e.Interrupts
    · rw [onKey_interrupt hi]
      exact handsOff_of_eq rfl rfl
    by_cases hp : e.kind = .press
    · rw [onKey_paused hi hp hr]
      cases e.code with
      | enter => exact t.handsOff_submit
      | char | escape | backspace | other => exact handsOff_of_eq rfl rfl
    · rw [onKey_not_press hi hp]
      exact handsOff_of_eq rfl rfl

theorem onKey_typed (hr : t.debugger.running = false) (hi : ¬e.Interrupts)
    (hcode : e.code = .backspace ∨ ∃ c, e.code = .char c) (now : Nat) :
    t.onKey e now = { t with input := (t.onKey e now).input } := by
  by_cases hp : e.kind = .press
  · rw [onKey_paused hi hp hr]
    rcases hcode with hback | ⟨c, hchar⟩
    · rw [hback]
      rfl
    · rw [hchar]
      rfl
  · rw [onKey_not_press hi hp]

/-- While the machine runs an event quits, pauses, presses one key of the keypad or does nothing;
nothing typed at the prompt moves, no breakpoint, and of the machine at most the keypad, the wait
for a key and the register that the key is for. While it is paused an event presses no key of the
keypad and forgets none, and what is typed or taken back moves the input line alone. An event that
is no press does nothing but quit, if it is Ctrl-C. -/
theorem modes_apart (t : Terminal) (e : KeyEvent) (now : Nat) :
    let after := t.onKey e now
    (t.debugger.running = true → t.Steers e now after ∧
      after = { t with
        quit := after.quit, output := after.output, held := after.held
        debugger := { t.debugger with
          running := after.debugger.running
          runner := { t.debugger.runner with
            machine := { t.machine with
              keypad := after.machine.keypad, v := after.machine.v
              awaiting := after.machine.awaiting } } } }) ∧
    (t.debugger.running = false →
      after.held = t.held ∧
      (∀ k, after.machine.keypad.isDown k = true → t.machine.keypad.isDown k = true) ∧
      (¬e.Interrupts → e.code = .backspace ∨ (∃ c, e.code = .char c) →
        after = { t with input := after.input })) ∧
    (e.kind ≠ .press → after = if e.Interrupts then { t with quit := true } else t) := by
  intro after
  refine ⟨?running, ?paused, ?noPress⟩
  case running =>
    intro hr
    have hsteers : t.Steers e now after := steers_onKey hr e now
    refine ⟨hsteers, ?_⟩
    clear_value after
    cases hsteers <;> rfl
  case paused =>
    intro hr
    have hnone : t.padKey? e = none := by
      rw [padKey?, if_neg]
      rintro ⟨hrunning, -⟩
      cases hr.symm.trans hrunning
    have hoff := handsOff_onKey hnone now
    exact ⟨hoff.held_eq, fun k => hoff.isDown, fun hi hcode => onKey_typed hr hi hcode now⟩
  case noPress =>
    intro hp
    by_cases hi : e.Interrupts
    · rw [if_pos hi]
      exact onKey_interrupt hi now
    · rw [if_neg hi]
      exact onKey_not_press hi hp now

/-- A terminal with a line half typed and a key held down. Its machine runs and waits for another
key. -/
def waitingForKey : Terminal :=
  let m := { Machine.powerOn {} 0 with awaiting := some 3, keypad := Keypad.idle.set 0xA true }
  { start m with
    debugger := { Debugger.start m with running := true }
    held := HeldKeys.none.press 0xA 0, input := "mem ", last := some (.step 2) }

/-- The key reaches the register, not the line. Once paused, an empty line repeats the last command
and leaves the held key held. -/
theorem modes_apart_waitingForKey :
    let pressed := waitingForKey.onKey { code := .char 'W' } 7
    let paused := { waitingForKey with debugger.running := false, input := " " }
    let stepped := paused.onKey { code := .enter } 9
    waitingForKey.debugger.running = true ∧ pressed.machine.v.get 3 = 5 ∧
      pressed.machine.keypad.downKeys = [5, 0xA] ∧ pressed.held.keys = [5, 0xA] ∧
      pressed.input = "mem " ∧ pressed.machine.pc = waitingForKey.machine.pc ∧
      paused.debugger.running = false ∧ stepped.output = "OK" ∧ stepped.held = paused.held ∧
      stepped.machine.keypad.isDown 5 = false := by
  intro pressed paused stepped
  obtain ⟨hregister, hdown, hheld, houtput⟩ : pressed.machine.v.get 3 = 5 ∧
      pressed.machine.keypad.downKeys = [5, 0xA] ∧ pressed.held.keys = [5, 0xA] ∧
      stepped.output = "OK" := by decide +kernel
  obtain ⟨-, hframe⟩ := (modes_apart waitingForKey { code := .char 'W' } 7).1 rfl
  obtain ⟨hkept, hdown', -⟩ := (modes_apart paused { code := .enter } 9).2.1 rfl
  have hup : stepped.machine.keypad.isDown 5 = false :=
    Bool.eq_false_iff.mpr fun h => absurd (hdown' 5 h) (by decide)
  exact ⟨rfl, hregister, hdown, hheld, congrArg Terminal.input hframe,
    congrArg (fun t => t.machine.pc) hframe, rfl, houtput, hkept, hup⟩

end Terminal

end Chip8
