import Chip8.Proofs.Refinement
import Chip8.Proofs.WakeUp

/-!
What a thread is told after a key wait. A thread that has come to a wait looks, each time it has
the lock, whether the machine waits for a key; it does not ask whether that is still its own wait.
While no other wait begins in between the answer is right. But another thread can come to the next
key wait after the key has gone down and before the sleeper has the lock again. The sleeper then
goes on sleeping, and once the session is shut down it is told that it has waited in vain.
-/

namespace Chip8

open Table (Row outcome)

theorem Table.Row.awaiting_eq {s s' : Table.State} {i : Instruction} (h : Row s i s') :
    s'.awaiting = match outcome i with
      | .waiting r => some r
      | _ => s.awaiting := by
  cases h <;> rfl

namespace Machine

/-- The register of the wait that the next step begins. A step that finds a wait pending begins
none. -/
def begins? (m : Machine) : Option Nibble :=
  match m.awaiting, m.step.result with
  | none, .ok (.waiting r) => some r
  | _, _ => none

theorem awaiting_step (m : Machine) : m.step.machine.awaiting = m.begins?.or m.awaiting := by
  unfold begins?
  rcases step_cases m with ⟨cause, -, hs⟩ | ⟨r, -, hw, hs⟩ | ⟨o, after, -, hw, hn, hs⟩ |
      ⟨cause, after, -, hw, -, hs⟩ <;> rw [hs]
  · cases m.awaiting <;> rfl
  · rw [hw]
    rfl
  · obtain ⟨word, -, -, rfl, hrow⟩ := row_of_next hn
    have hawaiting : after.awaiting = _ := hrow.awaiting_eq
    have hidle : m.state.awaiting = none := hw
    rw [hawaiting, hidle, hw]
    cases outcome (.decode word) <;> rfl
  · rw [hw]
    rfl

theorem awaiting_of_waiting {m : Machine} {r : Nibble} (h : m.step.result = .ok (.waiting r)) :
    m.step.machine.awaiting = some r := by
  rw [awaiting_step, begins?]
  rcases step_cases m with ⟨cause, -, hs⟩ | ⟨x, -, hw, hs⟩ | ⟨o, after, -, hw, -, hs⟩ |
      ⟨cause, after, -, -, -, hs⟩ <;> rw [hs] at h ⊢ <;> cases h
  · rw [hw]
    rfl
  · rw [hw]
    rfl

end Machine

namespace Monitor

/-- What happens to the waits of a session. -/
inductive WaitEvent where
  /-- A step comes to a key wait for register `r`. -/
  | begun (r : Nibble)
  /-- A key goes down, which ends the wait for register `r`. -/
  | ended (r : Nibble)
  deriving DecidableEq

/-- The wait that is pending after an event. -/
def WaitEvent.pending : WaitEvent → Option Nibble
  | .begun r => some r
  | .ended _ => none

/-- What a thread in this stage is about to do to the waits of machine `m`. -/
def Stage.waitEvent? (m : Machine) : Stage → Option WaitEvent
  | .locked .execute | .locked .executeBlocking => m.begins?.map .begun
  | .locked (.setKey k pressed) => (m.completes k pressed).map .ended
  | _ => none

/-- What an action does to the waits. -/
def waitEvent? (s : Monitor) (x : Action) : Option WaitEvent :=
  x.thread?.bind fun t => (s.stage? t).bind (Stage.waitEvent? s.machine)

variable {m : Machine} {s s' : Monitor} {t : Nat} {role : Role} {a b : Stage} {r : Nibble}
  {x : Action} {e : WaitEvent} {schedule during : List Action}

/-- A wait begins where none is pending, and only a pending one ends. -/
theorem Stage.waitEvent?_cases (h : a.waitEvent? m = some e) :
    (∃ r, e = .begun r ∧ m.awaiting = none) ∨ ∃ r, e = .ended r ∧ m.awaiting = some r := by
  cases a with
  | locked c =>
    cases c with
    | execute | executeBlocking =>
      obtain ⟨r, hr, rfl⟩ := Option.map_eq_some_iff.mp h
      unfold Machine.begins? at hr
      split at hr <;> cases hr
      exact .inl ⟨r, rfl, ‹_›⟩
    | setKey k pressed =>
      obtain ⟨r, hr, rfl⟩ := Option.map_eq_some_iff.mp h
      unfold Machine.completes at hr
      split at hr
      · exact .inr ⟨r, rfl, hr⟩
      · cases hr
    | tick | beeping | shutdown | stop => cases h
  | _ => cases h

theorem Turn.awaiting_eq (h : Turn s t role a b s') : s'.machine.awaiting =
    (a.waitEvent? s.machine).elim s.machine.awaiting WaitEvent.pending := by
  cases h with
  | execute | executeBlocking | suspend =>
    change s.machine.step.machine.awaiting = (s.machine.begins?.map WaitEvent.begun).elim _ _
    rw [Machine.awaiting_step]
    cases s.machine.begins? <;> rfl
  | @setKey _ k pressed =>
    change (s.machine.setKey k pressed).awaiting =
      ((s.machine.completes k pressed).map WaitEvent.ended).elim _ _
    unfold Machine.setKey
    cases s.machine.completes k pressed <;> rfl
  | call ha => cases a <;> first | rfl | cases ha
  | @unlock _ c hc => cases c <;> first | rfl | cases hc
  | _ => rfl

theorem awaiting_act (h : s.act? x = some s') :
    s'.machine.awaiting = (s.waitEvent? x).elim s.machine.awaiting WaitEvent.pending := by
  unfold waitEvent?
  rcases hx : x.thread? with _ | t
  · obtain ⟨role, rfl⟩ := spawn_of_act h hx
    rfl
  · obtain ⟨role, a, b, hthread, hturn⟩ := turn_of_act h hx
    rw [Option.bind_some, stage?_of_thread hthread, Option.bind_some]
    exact hturn.awaiting_eq

theorem waitEvent?_cases (h : s.waitEvent? x = some e) :
    (∃ r, e = .begun r ∧ s.machine.awaiting = none) ∨
      ∃ r, e = .ended r ∧ s.machine.awaiting = some r := by
  obtain ⟨t, -, ht⟩ := Option.bind_eq_some_iff.mp h
  obtain ⟨a, -, ha⟩ := Option.bind_eq_some_iff.mp ht
  exact Stage.waitEvent?_cases ha

/-- Nothing happens to the waits in the course of a schedule, or something happens first: a pending
wait ends, or one begins where none is pending. -/
theorem first_event (h : s.follow schedule = some s') :
    (s.observe waitEvent? schedule = [] ∧ s'.machine.awaiting = s.machine.awaiting) ∨
    ∃ (e : WaitEvent) (next : Monitor) (later : List Action),
      s.observe waitEvent? schedule = e :: next.observe waitEvent? later ∧
      next.follow later = some s' ∧ next.machine.awaiting = e.pending ∧
      ((∃ r, e = .begun r ∧ s.machine.awaiting = none) ∨
        ∃ r, e = .ended r ∧ s.machine.awaiting = some r) := by
  induction schedule generalizing s with
  | nil =>
    cases h
    exact .inl ⟨rfl, rfl⟩
  | cons x schedule ih =>
    obtain ⟨next, hx, hrest⟩ := follow_cons_eq_some.mp h
    have hnext := awaiting_act hx
    rw [observe_cons hx]
    rcases he : s.waitEvent? x with _ | e <;> rw [he] at hnext
    · have hsame : next.machine.awaiting = s.machine.awaiting := hnext
      have hlater := ih hrest
      rwa [hsame] at hlater
    · exact .inr ⟨e, next, schedule, rfl, hrest, hnext, waitEvent?_cases he⟩

/-- What a sleeper is told whose wait is over. -/
def Stage.resumed : Stage := .returned (.step (.ok .advanced))

/-- What a sleeper is told whom shutting down has woken. -/
def Stage.inVain (r : Nibble) : Stage := .returned (.step (.ok (.waiting r)))

/-- A call of thread `t` comes to a key wait for register `r`, is at it all through `during`, and
then has the lock and is about to look. -/
structure Slept (t : Nat) (r : Nibble) (come : Monitor) (during : List Action) (s : Monitor) :
    Prop where
  comes : ∃ before : Monitor, before.stage? t = some (.locked .executeBlocking) ∧
    before.machine.step.result = .ok (.waiting r) ∧ before.act? (.advance t) = some come
  stays : come.Throughout (fun s => ∃ a : Stage, s.stage? t = some a ∧ a.waits = true) during
  wakes : come.follow during = some s
  looks : s.stage? t = some (.testing r)

namespace Slept

variable {come : Monitor}

theorem awaiting_eq (h : Slept t r come during s) : come.machine.awaiting = some r := by
  obtain ⟨before, hbefore, hresult, hcome⟩ := h.comes
  obtain ⟨role, a, b, hthread, hturn⟩ := advance_turn hcome
  cases hbefore.symm.trans (stage?_of_thread hthread)
  cases hturn with
  | call ha => cases ha
  | executeBlocking hother => exact absurd hresult (hother r)
  | suspend => exact Machine.awaiting_of_waiting hresult
  | unlock hc => cases hc

/-- What a look comes to. It is for any wait that the sleeper looks. -/
theorem look (h : Slept t r come during s) (hx : s.act? (.advance t) = some s') :
    (s.machine.awaiting = none ∧ s'.stage? t = some .resumed) ∨
    (s.machine.awaiting ≠ none ∧ s.shutDown = true ∧ s'.stage? t = some (.inVain r)) ∨
    (s.machine.awaiting ≠ none ∧ s.shutDown = false ∧ s'.stage? t = some (.dozing r)) := by
  obtain ⟨role, a, b, hthread, hturn⟩ := advance_turn hx
  cases h.looks.symm.trans (stage?_of_thread hthread)
  have hself := hturn.stage?_self h.looks
  cases hturn with
  | call ha => cases ha
  | resume hw => exact .inl ⟨hw, hself⟩
  | giveUp hw hs => exact .inr (.inl ⟨hw, hs, hself⟩)
  | doze hw hs => exact .inr (.inr ⟨hw, hs, hself⟩)

/-- Either nothing has happened to the wait, or a key has ended it and then perhaps others have
begun. -/
theorem events_cases (h : Slept t r come during s) :
    (come.observe waitEvent? during = [] ∧ s.machine.awaiting = some r) ∨
    (come.observe waitEvent? during = [.ended r] ∧ s.machine.awaiting = none) ∨
    ∃ r' rest, come.observe waitEvent? during = .ended r :: .begun r' :: rest := by
  have hw := h.awaiting_eq
  rcases first_event h.wakes with ⟨hnone, hsame⟩ |
      ⟨e, next, later, hevents, hlater, hnext, ⟨r', -, hidle⟩ | ⟨r', rfl, hpending⟩⟩
  · exact .inl ⟨hnone, hsame.trans hw⟩
  · cases hidle.symm.trans hw
  · cases hpending.symm.trans hw
    rcases first_event hlater with ⟨hnone, hsame⟩ |
        ⟨e, last, rest, hevents', -, -, ⟨r', rfl, -⟩ | ⟨r', -, hpending'⟩⟩
    · rw [hnone] at hevents
      exact .inr (.inl ⟨hevents, hsame.trans hnext⟩)
    · rw [hevents'] at hevents
      exact .inr (.inr ⟨r', _, hevents⟩)
    · cases hnext.symm.trans hpending'

end Slept

/-- A sleeper is told that its wait is over only if a key has ended it, and that it has waited in
vain only if the session is shut down while some wait is pending. If no other wait has begun, that
is its own, and each answer is the one that is true: in vain if the session is shut down and the
wait is pending, over if a key has ended it. -/
theorem sleeper_answers {come : Monitor} (h : Slept t r come during s)
    (hx : s.act? (.advance t) = some s') :
    let events := come.observe waitEvent? during
    (s'.stage? t = some (.inVain r) → s.shutDown = true ∧ s.machine.awaiting ≠ none) ∧
    (s'.stage? t = some .resumed → ∃ rest, events = .ended r :: rest) ∧
    ((∀ r', .begun r' ∉ events) →
      (s'.stage? t = some (.inVain r) ↔ s.shutDown = true ∧ events = []) ∧
      (s'.stage? t = some .resumed ↔ events = [.ended r]) ∧
      (s'.stage? t = some (.dozing r) ↔ s.shutDown = false ∧ events = []) ∧
      (events = [] → s.machine.awaiting = some r)) := by
  intro events
  refine ⟨?_, ?_, ?_⟩
  · intro hvain
    rcases h.look hx with ⟨-, hstage⟩ | ⟨hw, hs, -⟩ | ⟨-, -, hstage⟩
    · cases hstage.symm.trans hvain
    · exact ⟨hs, hw⟩
    · cases hstage.symm.trans hvain
  · intro hover
    have hw : s.machine.awaiting = none := by
      rcases h.look hx with ⟨hw, -⟩ | ⟨-, -, hstage⟩ | ⟨-, -, hstage⟩
      · exact hw
      all_goals cases hstage.symm.trans hover
    rcases h.events_cases with ⟨-, hpending⟩ | ⟨hended, -⟩ | ⟨r', rest, hmore⟩
    · cases hw.symm.trans hpending
    · exact ⟨_, hended⟩
    · exact ⟨_, hmore⟩
  · intro hno
    rcases h.events_cases with ⟨hnone, hw⟩ | ⟨hended, hw⟩ | ⟨r', rest, hmore⟩
    · rcases h.look hx with ⟨hidle, -⟩ | ⟨-, hs, hstage⟩ | ⟨-, hs, hstage⟩
      · cases hidle.symm.trans hw
      all_goals simp [events, hnone, hstage, hs, hw, Stage.inVain, Stage.resumed]
    · rcases h.look hx with ⟨-, hstage⟩ | ⟨hpending, -⟩ | ⟨hpending, -⟩
      · simp [events, hended, hstage, Stage.inVain, Stage.resumed]
      all_goals exact absurd hw hpending
    · exact absurd (by simp [events, hmore]) (hno r')

/-- A machine about to ask for a key into V3, and then for one into V4. -/
def askingTwice : Machine := { Machine.powerOn {} 0 with
  memory := ⟨overlay Memory.zero.bytes 0x200 [0xF3, 0x0A, 0xF4, 0x0A]⟩ }

/-- A second client comes to the first key wait. -/
def comingToWait : List Action :=
  [.spawn .client, .spawn .client, .call 1 .executeBlocking, .advance 1, .advance 1]

/-- It sleeps until key 7 goes down and it is woken. -/
def keyDown : List Action :=
  [.advance 1, .advance 1, .call 0 (.setKey 7 true), .advance 0, .advance 0, .advance 0, .advance 1]

/-- A third client comes to the second key wait before the sleeper has been woken, and the session
is shut down. -/
def secondWait : List Action :=
  [.advance 1, .advance 1, .call 0 (.setKey 7 true), .advance 0, .advance 0,
    .call 2 .execute, .advance 2, .advance 2, .advance 0, .call 0 .shutdown, .advance 1]

theorem askingTwice_waits :
    askingTwice.step.result = .ok (.waiting 3) ∧
    askingTwice.step.machine.completes 7 true = some 3 ∧
    (askingTwice.step.machine.setKey 7 true).step.result = .ok (.waiting 4) := by
  decide +kernel

/-- Three clients, of which the second has the lock and is about to look. -/
def looking (m : Machine) (shutDown : Bool) (first third : Stage) : Monitor :=
  ⟨m, shutDown, some 1, [⟨.client, first⟩, ⟨.client, .testing 3⟩, ⟨.client, third⟩]⟩

theorem comingToWait_comes : (start askingTwice).follow comingToWait =
      some (looking askingTwice.step.machine false .idle .idle) ∧
    ∃ before : Monitor, before.stage? 1 = some (.locked .executeBlocking) ∧
      before.machine.step.result = .ok (.waiting 3) ∧
      before.act? (.advance 1) = some (looking askingTwice.step.machine false .idle .idle) := by
  obtain ⟨hfirst, -⟩ := askingTwice_waits
  constructor
  · simp [comingToWait, start, follow, act?, spawn, call?, advance?, acquire?, work, setStage,
      looking, hfirst]
  · refine ⟨⟨askingTwice, false, some 1, [⟨.client, .idle⟩, ⟨.client, .locked .executeBlocking⟩,
      ⟨.client, .idle⟩]⟩, rfl, hfirst, ?_⟩
    simp [act?, advance?, work, setStage, looking, hfirst]

/-- The sleeper's own wait is over, and it is told so. -/
theorem sleeper_answers_keyDown :
    ∃ come s s', (start askingTwice).follow comingToWait = some come ∧
      Slept 1 3 come keyDown s ∧ s.act? (.advance 1) = some s' ∧
      come.observe waitEvent? keyDown = [.ended 3] ∧ s'.stage? 1 = some .resumed := by
  obtain ⟨hfirst, hkey, -⟩ := askingTwice_waits
  have hpending := Machine.awaiting_of_waiting hfirst
  obtain ⟨hfollow, hcomes⟩ := comingToWait_comes
  have hslept : Slept 1 3 (looking askingTwice.step.machine false .idle .idle) keyDown
      (looking (askingTwice.step.machine.setKey 7 true) false (.returned .done) .idle) :=
    { comes := hcomes
      stays := by
        simp [keyDown, looking, Throughout, act?, advance?, test, hpending, release, call?,
          acquire?, work, setStage, stage?, Stage.waits, notifyAll, Thread.wake]
      wakes := by
        simp [keyDown, looking, follow, act?, advance?, test, hpending, release, call?, acquire?,
          work, setStage, notifyAll, Thread.wake]
      looks := rfl }
  have hevents : (looking askingTwice.step.machine false .idle .idle).observe waitEvent? keyDown =
      [.ended 3] := by
    simp [keyDown, looking, observe, act?, advance?, test, hpending, hkey, release, call?, acquire?,
      work, setStage, notifyAll, Thread.wake, waitEvent?, Action.thread?, stage?, Stage.waitEvent?]
  have hlook : (looking (askingTwice.step.machine.setKey 7 true) false (.returned .done) .idle).act?
      (.advance 1) = some _ := rfl
  obtain ⟨-, -, hanswers⟩ := sleeper_answers hslept hlook
  obtain ⟨-, hover, -⟩ := hanswers (by simp [hevents])
  exact ⟨_, _, _, hfollow, hslept, hlook, hevents, hover.mpr hevents⟩

/-- A sleeper whose wait a key has ended can be told that it has waited in vain. -/
theorem not_told_own_wait : ¬∀ (m : Machine) (before during : List Action) (come s s' : Monitor)
    (t : Nat) (r : Nibble), (start m).follow before = some come → Slept t r come during s →
    s.act? (.advance t) = some s' →
      let events := come.observe waitEvent? during
      (s'.stage? t = some (.inVain r) → s'.shutDown = true ∧ events = []) ∧
      (s'.stage? t = some .resumed ↔ ∃ rest, events = .ended r :: rest) ∧
      ∀ rest, events = .ended r :: rest → s'.stage? t ≠ some (.dozing r) := by
  intro htold
  obtain ⟨hfirst, hkey, hsecond⟩ := askingTwice_waits
  have hpending := Machine.awaiting_of_waiting hfirst
  have hpending' := Machine.awaiting_of_waiting hsecond
  have hover : (askingTwice.step.machine.setKey 7 true).awaiting = none := by
    simp [Machine.setKey, hkey]
  have hbegins : (askingTwice.step.machine.setKey 7 true).begins? = some 4 := by
    simp [Machine.begins?, hover, hsecond]
  obtain ⟨hfollow, hcomes⟩ := comingToWait_comes
  generalize askingTwice.step.machine = waiting at *
  have hslept : Slept 1 3 (looking waiting false .idle .idle) secondWait
      (looking (waiting.setKey 7 true).step.machine true (.locking .shutdown)
        (.returned (.step (.ok (.waiting 4))))) :=
    { comes := hcomes
      stays := by
        simp [secondWait, looking, Throughout, act?, advance?, test, hpending, hsecond, release,
          call?, acquire?, work, setStage, stage?, Stage.waits, notifyAll, Thread.wake]
      wakes := by
        simp [secondWait, looking, follow, act?, advance?, test, hpending, hsecond, release, call?,
          acquire?, work, setStage, notifyAll, Thread.wake]
      looks := rfl }
  have hevents : (looking waiting false .idle .idle).observe waitEvent? secondWait =
      [.ended 3, .begun 4] := by
    simp [secondWait, looking, observe, act?, advance?, test, hpending, hkey, hsecond, hbegins,
      release, call?, acquire?, work, setStage, notifyAll, Thread.wake, waitEvent?, Action.thread?,
      stage?, Stage.waitEvent?]
  obtain ⟨hvain, -⟩ := htold askingTwice comingToWait secondWait _ _ _ 1 3 hfollow hslept rfl
  rcases hslept.look rfl with ⟨hidle, -⟩ | ⟨-, -, hstage⟩ | ⟨-, hopen, -⟩
  · cases hidle.symm.trans hpending'
  · cases hevents.symm.trans (hvain hstage).2
  · cases hopen

end Monitor

end Chip8
