import Chip8.Monitor.Scenario
import Chip8.Proofs.Turns

/-!
No wake-up is lost. A thread that sleeps through a key wait while the wait is over, or while the
session is shut down, has its wake-up ahead: some call that has made its change has yet to wake the
sleepers. Setting the flag needs no lock. It may come between a sleeper's last look at the flag and
its sleep, but then the call cannot get past the lock before the sleeper has let it go.
-/

namespace Chip8

/-- A step never ends a wait for a key. -/
theorem Machine.awaiting_of_step {m : Machine} (h : m.step.machine.awaiting = none) :
    m.awaiting = none := by
  rcases step_cases m with ⟨cause, -, hs⟩ | ⟨r, -, -, hs⟩ | ⟨o, after, -, hw, -, -⟩ |
      ⟨cause, after, -, hw, -, -⟩
  · rwa [hs] at h
  · rwa [hs] at h
  · exact hw
  · exact hw

namespace Monitor

/-- Whether a call ends by waking the sleepers. -/
def Call.wakes : Call → Bool
  | .setKey .. | .shutdown | .stop _ => true
  | _ => false

theorem Call.wakes_of_shutsDown {c : Call} (h : c.shutsDown = true) : c.wakes = true := by
  cases c <;> first | rfl | cases h

namespace Stage

/-- Inside a call that has yet to wake the sleepers. -/
def rousing : Stage → Bool
  | .locking c | .locked c | .notifying c => c.wakes
  | _ => false

/-- Inside such a call that has made its change. The flag is set before the lock is asked for, a
key is set and the lock released in one. -/
def owing : Stage → Bool
  | .locking c | .locked c => c.shutsDown
  | .notifying c => c.wakes
  | _ => false

/-- Has set the flag and wants the lock. -/
def shutting : Stage → Bool
  | .locking c => c.shutsDown
  | _ => false

variable {a : Stage}

theorem rousing_of_owing (h : a.owing = true) : a.rousing = true := by
  cases a with
  | locking c | locked c => exact Call.wakes_of_shutsDown h
  | notifying c => exact h
  | _ => cases h

theorem owing_of_shutting (h : a.shutting = true) : a.owing = true := by
  cases a with
  | locking c => exact h
  | _ => cases h

theorem owing_woken (a : Stage) : a.woken.owing = a.owing := by cases a <;> rfl

theorem shutting_woken (a : Stage) : a.woken.shutting = a.shutting := by cases a <;> rfl

end Stage

/-- Some thread is in a stage of this kind. -/
def Any (s : Monitor) (p : Stage → Bool) : Prop := ∃ t a, s.stage? t = some a ∧ p a = true

/-- Nothing keeps a sleeper from going on. -/
def Resolved (s : Monitor) : Prop := s.machine.awaiting = none ∨ s.shutDown = true

variable {m : Machine} {s s' : Monitor} {t u : Nat} {role : Role} {a b c : Stage} {r : Nibble}
  {p q : Stage → Bool}

theorem any_iff : s.Any p ↔ s.threads.any (fun thread => p thread.stage) = true := by
  rw [List.any_eq_true]
  constructor
  · rintro ⟨t, a, ha, hp⟩
    obtain ⟨role, hthread⟩ := exists_thread ha
    exact ⟨_, List.mem_of_getElem? hthread, hp⟩
  · rintro ⟨thread, hmem, hp⟩
    obtain ⟨t, hthread⟩ := List.mem_iff_getElem?.mp hmem
    exact ⟨t, thread.stage, stage?_of_thread hthread, hp⟩

instance : Decidable (s.Any p) := decidable_of_iff _ any_iff.symm

theorem Any.mono (h : s.Any p) (hpq : ∀ a, p a = true → q a = true) : s.Any q := by
  obtain ⟨t, a, ha, hp⟩ := h
  exact ⟨t, a, ha, hpq a hp⟩

theorem Any.spawn (h : s.Any p) (role : Role) : (s.spawn role).Any p := by
  obtain ⟨t, a, ha, hp⟩ := h
  exact ⟨t, a, stage?_spawn ha role, hp⟩

namespace Turn

/-- Only a thread that holds the lock changes the machine. -/
theorem machine_eq (h : Turn s t role a b s') (ha : a.holds = false) : s'.machine = s.machine := by
  cases h <;> first | rfl | cases ha

/-- The lock is taken only where it is free. -/
theorem holder_of_holds (h : Turn s t role a b s') (hs : a.holds = true → s.holder = some t)
    (hb : b.holds = true) : s'.holder = some t := by
  cases h with
  | lock | relock => rfl
  | suspend | doze => exact hs rfl
  | _ => cases hb

/-- Only the thread that holds the lock releases it. -/
theorem holder_eq (h : Turn s t role a b s') (ha : a.holds = false) (hs : s.holder = some u) :
    s'.holder = some u := by
  cases h with
  | lock hl | relock hl =>
    rw [hs] at hl
    cases hl
  | execute | executeBlocking | suspend | setKey | tick | beeping | unlock | resume | giveUp |
      doze | sleep => cases ha
  | _ => exact hs

theorem shutDown_cases (h : Turn s t role a b s') (hs : s'.shutDown = true) :
    s.shutDown = true ∨ b.shutting = true := by
  cases h with
  | call => exact ((Bool.or_eq_true _ _).mp hs).symm
  | _ => exact .inl hs

/-- Whoever ends the last reason to sleep owes the sleepers their wake-up. -/
theorem resolved_cases (h : Turn s t role a b s') (hs : s'.Resolved) :
    s.Resolved ∨ b.owing = true := by
  cases h with
  | call =>
    rcases hs with hw | hs
    · exact .inl (.inl hw)
    · exact ((Bool.or_eq_true _ _).mp hs).symm.imp_left .inr
  | execute | executeBlocking | suspend => exact .inl (hs.imp_left Machine.awaiting_of_step)
  | setKey => exact .inr rfl
  | _ => exact .inl hs

/-- The debt lasts until the sleepers are woken. -/
theorem owing_of_owing (h : Turn s t role a b s') (ha : a.owing = true)
    (hquiet : a.telling = false) : b.owing = true := by
  cases h with
  | lock => exact ha
  | unlock => exact Call.wakes_of_shutsDown ha
  | setKey => rfl
  | tell | tellStop => cases hquiet
  | call hr => cases a <;> first | cases ha | cases hr
  | _ => cases ha

/-- With the flag set, a call is held up while another thread has the lock. -/
theorem holder_of_shutting (h : Turn s t role a b s') (ha : a.shutting = true) :
    s.holder = none := by
  cases h with
  | lock hl => exact hl
  | call hr => cases a <;> first | cases ha | cases hr
  | _ => cases ha

/-- A thread goes to sleep only after it has looked at the wait and at the flag. -/
theorem of_dozing (h : Turn s t role a (.dozing r) s') :
    s'.machine.awaiting ≠ none ∧ s'.shutDown = false := by
  cases h with
  | doze hw hs => exact ⟨hw, hs⟩

theorem of_asleep (h : Turn s t role a (.asleep r) s') :
    a = .dozing r ∧ s'.machine = s.machine ∧ s'.shutDown = s.shutDown := by
  cases h with
  | sleep => exact ⟨rfl, rfl, rfl⟩

/-- Another thread has moved only if it was woken. -/
theorem stage?_before (h : Turn s t role a b s') (hu : u ≠ t) (hc : s'.stage? u = some c)
    (hwaking : ∀ r, c ≠ .waking r) : s.stage? u = some c := by
  rw [h.stage?_other hu] at hc
  split at hc
  · obtain ⟨d, hd, rfl⟩ := Option.map_eq_some_iff.mp hc
    cases d with
    | asleep r => exact absurd rfl (hwaking r)
    | _ => exact hd
  · exact hc

/-- Nobody sleeps through a wake-up. -/
theorem telling_eq_false (h : Turn s t role a b s') (hu : u ≠ t)
    (hc : s'.stage? u = some (.asleep r)) : a.telling = false := by
  rw [h.stage?_other hu] at hc
  rw [Bool.eq_false_iff]
  intro htelling
  rw [if_pos htelling] at hc
  obtain ⟨d, -, hd⟩ := Option.map_eq_some_iff.mp hc
  cases d <;> cases hd

theorem any (h : Turn s t role a b s') (ha : s.stage? t = some a) (hs : s.Any p)
    (hself : p a = true → p b = true) (hwoken : ∀ c, p c.woken = p c) : s'.Any p := by
  obtain ⟨u, c, hc, hp⟩ := hs
  by_cases hu : u = t
  · subst hu
    obtain rfl := Option.some.inj (hc.symm.trans ha)
    exact ⟨u, b, h.stage?_self ha, hself hp⟩
  · have hother := h.stage?_other hu
    rw [hc] at hother
    split at hother
    · exact ⟨u, c.woken, hother, (hwoken c).trans hp⟩
    · exact ⟨u, c, hother, hp⟩

end Turn

/-- What the lock, the flag and the debts of wake-ups say about threads that sleep or are about
to. -/
structure Vigilant (s : Monitor) : Prop where
  locked : ∀ t a, s.stage? t = some a → a.holds = true → s.holder = some t
  /-- A flag that is set after a thread has looked at it is known to a call that wants the lock. -/
  dozing : ∀ t r, s.stage? t = some (.dozing r) →
    s.machine.awaiting ≠ none ∧ (s.shutDown = true → s.Any Stage.shutting)
  asleep : ∀ t r, s.stage? t = some (.asleep r) → s.Resolved → s.Any Stage.owing

namespace Vigilant

theorem start (m : Machine) : Vigilant (Monitor.start m) := by
  have hidle : ∀ t a, (Monitor.start m).stage? t = some a → a = .idle := by
    intro t a ha
    cases t <;> cases ha
    rfl
  constructor
  · intro t a ha hholds
    obtain rfl := hidle t a ha
    cases hholds
  · intro t r ha
    cases hidle t _ ha
  · intro t r ha
    cases hidle t _ ha

theorem spawn (h : Vigilant s) (role : Role) : Vigilant (s.spawn role) := by
  constructor
  · intro t a ha hholds
    rcases stage?_of_spawn ha with hbefore | rfl
    · exact h.locked t a hbefore hholds
    · cases hholds
  · intro t r ha
    obtain ⟨hw, hs⟩ := h.dozing t r ((stage?_of_spawn ha).resolve_right nofun)
    refine ⟨hw, ?_⟩
    intro hflag
    exact (hs hflag).spawn role
  · intro t r ha hresolved
    have hbefore := (stage?_of_spawn ha).resolve_right nofun
    exact (h.asleep t r hbefore hresolved).spawn role

/-- While one thread has the lock no other has it. -/
theorem holds_eq_false (h : Vigilant s) (ha : s.stage? t = some a) (hc : s.stage? u = some c)
    (hu : u ≠ t) (hholds : c.holds = true) : a.holds = false := by
  rw [Bool.eq_false_iff]
  intro hboth
  have hsame := (h.locked u c hc hholds).symm.trans (h.locked t a ha hboth)
  exact hu (Option.some.inj hsame)

variable (h : Vigilant s) (hturn : Turn s t role a b s') (ha : s.stage? t = some a)

include h hturn ha

theorem locked_turn (hc : s'.stage? u = some c) (hholds : c.holds = true) :
    s'.holder = some u := by
  by_cases hu : u = t
  · subst hu
    obtain rfl := Option.some.inj (hc.symm.trans (hturn.stage?_self ha))
    exact hturn.holder_of_holds (h.locked u a ha) hholds
  · have hbefore : s.stage? u = some c := by
      apply hturn.stage?_before hu hc
      rintro r rfl
      cases hholds
    have hfree := h.holds_eq_false ha hbefore hu hholds
    exact hturn.holder_eq hfree (h.locked u c hbefore hholds)

theorem dozing_turn (hc : s'.stage? u = some (.dozing r)) :
    s'.machine.awaiting ≠ none ∧ (s'.shutDown = true → s'.Any Stage.shutting) := by
  by_cases hu : u = t
  · subst hu
    obtain rfl := Option.some.inj (hc.symm.trans (hturn.stage?_self ha))
    obtain ⟨hw, hs⟩ := hturn.of_dozing
    refine ⟨hw, ?_⟩
    intro hflag
    rw [hs] at hflag
    cases hflag
  · have hbefore := hturn.stage?_before hu hc nofun
    obtain ⟨hw, hs⟩ := h.dozing u r hbefore
    have hfree := h.holds_eq_false ha hbefore hu rfl
    have hheld := h.locked u _ hbefore rfl
    rw [hturn.machine_eq hfree]
    refine ⟨hw, ?_⟩
    intro hflag
    rcases hturn.shutDown_cases hflag with hflag | hb
    · apply hturn.any ha (hs hflag) _ Stage.shutting_woken
      intro hshutting
      -- The call that has set the flag cannot go on before the sleeper releases the lock.
      rw [hturn.holder_of_shutting hshutting] at hheld
      cases hheld
    · exact ⟨t, b, hturn.stage?_self ha, hb⟩

theorem asleep_turn (hc : s'.stage? u = some (.asleep r)) (hresolved : s'.Resolved) :
    s'.Any Stage.owing := by
  by_cases hu : u = t
  · subst hu
    obtain rfl := Option.some.inj (hc.symm.trans (hturn.stage?_self ha))
    obtain ⟨rfl, hm, hf⟩ := hturn.of_asleep
    obtain ⟨hw, hs⟩ := h.dozing u r ha
    rw [Resolved, hm, hf] at hresolved
    have hshutting := hs (hresolved.resolve_left hw)
    have hafter := hturn.any ha hshutting nofun Stage.shutting_woken
    exact hafter.mono fun d => Stage.owing_of_shutting
  · have hbefore := hturn.stage?_before hu hc nofun
    have hquiet := hturn.telling_eq_false hu hc
    rcases hturn.resolved_cases hresolved with hresolved | hb
    · have hdebt := h.asleep u r hbefore hresolved
      exact hturn.any ha hdebt (hturn.owing_of_owing · hquiet) Stage.owing_woken
    · exact ⟨t, b, hturn.stage?_self ha, hb⟩

theorem turn : Vigilant s' where
  locked _ _ hc hholds := h.locked_turn hturn ha hc hholds
  dozing _ _ hc := h.dozing_turn hturn ha hc
  asleep _ _ hc hresolved := h.asleep_turn hturn ha hc hresolved

end Vigilant

theorem Reachable.vigilant (h : Reachable m s) : Vigilant s :=
  h.preserves (.start m) (fun _ role hs => hs.spawn role)
    (fun _ _ _ _ _ _ hs hthread hturn => hs.turn hturn (stage?_of_thread hthread))

/-- Where a thread sleeps though the wait is over or the session is shut down, a call that has made
its change has yet to wake the sleepers. So once those calls have returned, whoever sleeps has
reason to. -/
theorem no_lost_wakeUp (h : Reachable m s) :
    (∀ t r, s.stage? t = some (.asleep r) → s.Resolved → s.Any Stage.owing) ∧
    (¬s.Any Stage.rousing → ∀ t r, s.stage? t = some (.asleep r) →
      s.machine.awaiting ≠ none ∧ s.shutDown = false) := by
  have hasleep := h.vigilant.asleep
  refine ⟨hasleep, ?_⟩
  intro hquiet t r ht
  have hunresolved : ¬s.Resolved := by
    intro hresolved
    exact hquiet ((hasleep t r ht hresolved).mono fun _ => Stage.rousing_of_owing)
  obtain ⟨hw, hs⟩ := not_or.mp hunresolved
  exact ⟨hw, Bool.eq_false_iff.mpr hs⟩

theorem exists_of_isAsleep (h : s.isAsleep t = true) : ∃ r, s.stage? t = some (.asleep r) := by
  unfold isAsleep at h
  split at h
  · rename_i r hr
    exact ⟨r, hr⟩
  · cases h

/-- A machine about to ask for a key into V3. -/
def asking : Machine := { Machine.powerOn {} 0 with
  memory := ⟨overlay Memory.zero.bytes 0x200 [0xF3, 0x0A]⟩ }

/-- A second client comes to the key wait, looks at the flag and sleeps. -/
def fallingAsleep : List Action :=
  [.spawn .client, .call 1 .executeBlocking, .advance 1, .advance 1, .advance 1, .advance 1]

/-- The flag is set after the sleeper's last look at it. -/
def flagInBetween : List Action :=
  [.spawn .client, .call 1 .executeBlocking, .advance 1, .advance 1, .advance 1,
    .call 0 .shutdown, .advance 1]

/-- In the one session there is reason to sleep, in the other a wake-up ahead. -/
theorem no_lost_wakeUp_flagInBetween :
    (∃ s r, (start asking).follow fallingAsleep = some s ∧ s.stage? 1 = some (.asleep r) ∧
      ¬s.Any Stage.rousing ∧ s.machine.awaiting ≠ none ∧ s.shutDown = false) ∧
    ∃ s r, (start asking).follow flagInBetween = some s ∧ s.stage? 1 = some (.asleep r) ∧
      s.shutDown = true ∧ s.Any Stage.owing := by
  have hasleep : ((start asking).follow fallingAsleep).any (fun s =>
      s.isAsleep 1 && !decide (s.Any Stage.rousing)) = true := by decide +kernel
  have hflag : ((start asking).follow flagInBetween).any (fun s =>
      s.isAsleep 1 && s.shutDown) = true := by decide +kernel
  constructor
  · obtain ⟨s, hs, hfacts⟩ := (Option.any_eq_true ..).mp hasleep
    obtain ⟨hsleeps, hquiet⟩ := (Bool.and_eq_true _ _).mp hfacts
    obtain ⟨r, hr⟩ := exists_of_isAsleep hsleeps
    have hnobody : ¬s.Any Stage.rousing := by simpa using hquiet
    exact ⟨s, r, hs, hr, hnobody, (no_lost_wakeUp (.follow .start hs)).2 hnobody 1 r hr⟩
  · obtain ⟨s, hs, hfacts⟩ := (Option.any_eq_true ..).mp hflag
    obtain ⟨hsleeps, hshutDown⟩ := (Bool.and_eq_true _ _).mp hfacts
    obtain ⟨r, hr⟩ := exists_of_isAsleep hsleeps
    exact ⟨s, r, hs, hr, hshutDown,
      (no_lost_wakeUp (.follow .start hs)).1 1 r hr (.inr hshutDown)⟩

end Monitor

end Chip8
