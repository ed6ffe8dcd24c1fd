import Chip8.Proofs.Modes

/-!
No key stays down. A key that is down in the machine is one that the terminal remembers, so that a
sweep lets go of it once it has been quiet for long enough.
-/

namespace Chip8

namespace HeldKeys

variable {held : HeldKeys} {now : Nat} {k : Nibble}

theorem isExpired_of_lt {time : Nat} (h : held.pressedAt.get k = some time)
    (hnow : time + hold < now) : held.isExpired now k = true := by
  rw [isExpired, h]
  exact decide_eq_true (by omega)

end HeldKeys

namespace Runner

theorem isDown_release {keys : List Nibble} {r : Runner} {k : Nibble} :
    (keys.foldl (fun r k => r.setKey k false) r).machine.keypad.isDown k = true ↔
      k ∉ keys ∧ r.machine.keypad.isDown k = true := by
  induction keys generalizing r with
  | nil => simp
  | cons j keys ih =>
    have hset : (r.setKey j false).machine.keypad = r.machine.keypad.set j false :=
      r.machine.keypad_setKey j false
    rw [List.foldl_cons, ih, hset, Keypad.isDown_set]
    by_cases hj : j = k
    · simp [hj]
    · simp [hj, Ne.symm hj]

end Runner

namespace Terminal

/-- What becomes of a terminal on a machine `m`: keys are typed, pressed and let go, time passes,
commands are given, and quiet keys are swept up. The list has the moments at which a key of the
keypad was pressed. -/
inductive Session (m : Machine) : List Nat → Terminal → Prop
  | start : Session m [] (.start m)
  | key {times : List Nat} {t : Terminal} (s : Session m times t) (e : KeyEvent) (now : Nat) :
      Session m (((t.padKey? e).map fun _ => now).toList ++ times) (t.onKey e now)
  | tick {times : List Nat} {t after : Terminal} (s : Session m times t) {fuel : Nat}
      {dt : Float32} (h : t.tick fuel dt = some after) : Session m times after
  | command {times : List Nat} {t : Terminal} (s : Session m times t) (c : Command) :
      Session m times (t.runCommand c)
  | sweep {times : List Nat} {t : Terminal} (s : Session m times t) (now : Nat) :
      Session m times (t.releaseExpired now)

/-- The terminal remembers every key that is down, with a moment at which a key was pressed. -/
structure Recalls (times : List Nat) (t : Terminal) : Prop where
  held_of_down : ∀ k, t.machine.keypad.isDown k = true → t.held.isHeld k = true
  time_mem : ∀ k, ∀ time ∈ t.held.pressedAt.get k, time ∈ times

variable {m : Machine} {times : List Nat} {t after : Terminal} {k : Nibble}

theorem isDown_releaseExpired {now : Nat} :
    (t.releaseExpired now).machine.keypad.isDown k = true ↔
      t.held.isExpired now k = false ∧ t.machine.keypad.isDown k = true := by
  rw [← Bool.not_eq_true, ← HeldKeys.mem_expire]
  exact Runner.isDown_release

theorem Recalls.start (h : ∀ k, m.keypad.isDown k = false) : Recalls [] (.start m) where
  held_of_down k hk := by
    cases (h k).symm.trans hk
  time_mem k time htime := by
    have hnone : HeldKeys.none.pressedAt.get k = none := Vector.getElem_replicate ..
    cases hnone.symm.trans htime

theorem Recalls.handsOff (h : Recalls times t) (ho : t.HandsOff after) : Recalls times after where
  held_of_down k hk := by
    rw [ho.held_eq]
    exact h.held_of_down k (ho.isDown hk)
  time_mem := by
    rw [ho.held_eq]
    exact h.time_mem

theorem Recalls.press (h : Recalls times t) (k : Nibble) (now : Nat) :
    Recalls (now :: times) { t with
      debugger := t.debugger.withMachine (t.machine.setKey k true), held := t.held.press k now } where
  held_of_down j hj := by
    have hkeypad := t.machine.keypad_setKey k true
    have hdown : (t.machine.keypad.set k true).isDown j = true := hkeypad ▸ hj
    rw [HeldKeys.isHeld_press]
    by_cases hk : k = j
    · simp [hk]
    · rw [Keypad.isDown_set, if_neg hk] at hdown
      simp [h.held_of_down j hdown]
  time_mem j time htime := by
    rw [HeldKeys.pressedAt_press] at htime
    split at htime
    · rw [Option.mem_some.mp htime]
      exact List.mem_cons_self
    · exact List.mem_cons_of_mem now (h.time_mem j time htime)

theorem Recalls.sweep (h : Recalls times t) (now : Nat) : Recalls times (t.releaseExpired now) where
  held_of_down k hk := by
    obtain ⟨hfresh, hdown⟩ := isDown_releaseExpired.mp hk
    have hheld := h.held_of_down k hdown
    rw [HeldKeys.isHeld] at hheld ⊢
    have hkept : (t.releaseExpired now).held.pressedAt.get k = t.held.pressedAt.get k := by
      refine (HeldKeys.pressedAt_expire ..).trans ?_
      rw [hfresh]
      rfl
    rw [hkept]
    exact hheld
  time_mem k time htime := by
    have hexpire : (t.releaseExpired now).held.pressedAt.get k = _ :=
      t.held.pressedAt_expire now k
    rw [hexpire] at htime
    split at htime
    · cases htime
    · exact h.time_mem k time htime

theorem Session.recalls (hm : ∀ k, m.keypad.isDown k = false) (s : Session m times t) :
    Recalls times t := by
  induction s with
  | start => exact .start hm
  | @key times t _ e now ih =>
    cases hk : t.padKey? e with
    | none => exact ih.handsOff (handsOff_onKey hk now)
    | some k =>
      rw [onKey_of_padKey? hk]
      exact ih.press k now
  | tick _ h ih => exact ih.handsOff (handsOff_tick h)
  | @command _ t _ c ih => exact ih.handsOff (t.handsOff_runCommand c)
  | sweep _ now ih => exact ih.sweep now

/-- On a machine that starts with all keys up, a key that is down is one that the terminal
remembers, whatever is typed, pressed, commanded and swept up, in running and in paused mode. So a
sweep that comes more than the time of a hold after the last press leaves all keys up. -/
theorem no_stuck_keys (hm : ∀ k, m.keypad.isDown k = false) (s : Session m times t) :
    (∀ k, t.machine.keypad.isDown k = true → t.held.isHeld k = true) ∧
      ∀ now, (∀ time ∈ times, time + HeldKeys.hold < now) →
        ∀ k, (t.releaseExpired now).machine.keypad.isDown k = false := by
  have hrecalls := s.recalls hm
  refine ⟨hrecalls.held_of_down, ?_⟩
  intro now hnow k
  rw [Bool.eq_false_iff]
  intro hk
  obtain ⟨hfresh, hdown⟩ := isDown_releaseExpired.mp hk
  obtain ⟨time, htime⟩ := Option.isSome_iff_exists.mp (hrecalls.held_of_down k hdown)
  have hexpired := HeldKeys.isExpired_of_lt htime (hnow time (hrecalls.time_mem k time htime))
  cases hfresh.symm.trans hexpired

/-- A key is pressed while the machine runs and another one after a reset. In between `w` is typed
at the prompt, and in the end the machine is paused. -/
def restlessKeys : Terminal :=
  ((((((((start (Machine.powerOn {} 0)).runCommand .run).onKey { code := .char 'w' } 1000).onKey
    { code := .escape } 2000).onKey { code := .char 'w' } 3000).runCommand .reset).runCommand
      .run).onKey { code := .char 'q' } 4000).onKey { code := .escape } 5000

/-- The reset lets go of the first key, which the terminal still remembers. The sweep lets go of the
other one. -/
theorem no_stuck_keys_restlessKeys :
    Session (Machine.powerOn {} 0) [4000, 1000] restlessKeys ∧
      restlessKeys.machine.keypad.downKeys = [4] ∧ restlessKeys.held.keys = [4, 5] ∧
      restlessKeys.held.isHeld 4 = true ∧
      ∀ k, (restlessKeys.releaseExpired 50004001).machine.keypad.isDown k = false := by
  have hup (k : Nibble) : (Machine.powerOn {} 0).keypad.isDown k = false := Keypad.isDown_idle k
  have hs : Session (Machine.powerOn {} 0) [4000, 1000] restlessKeys :=
    ((((((((Session.start.command .run).key { code := .char 'w' } 1000).key
      { code := .escape } 2000).key { code := .char 'w' } 3000).command .reset).command
        .run).key { code := .char 'q' } 4000).key { code := .escape } 5000)
  obtain ⟨hdown, hheld⟩ : restlessKeys.machine.keypad.downKeys = [4] ∧
      restlessKeys.held.keys = [4, 5] := by decide +kernel
  obtain ⟨hrecalled, hsweep⟩ := no_stuck_keys hup hs
  refine ⟨hs, hdown, hheld, hrecalled 4 ?_, hsweep 50004001 (by decide)⟩
  rw [← Keypad.mem_downKeys, hdown]
  exact List.mem_cons_self

end Terminal

end Chip8
