import Chip8.Proofs.WakeUp

/-!
The end of a session. Once the flag is set the threads run out of things to do: each of their own
turns uses up some of what is left, and where nobody can go on every driver thread has ended. So a
client that stops a driver thread waits for its end in vain under no schedule.
-/

namespace Chip8.Monitor

/-- A thread goes on by itself: nobody calls, comes or wakes it. -/
def Action.Own : Action → Prop
  | .advance _ => True
  | _ => False

namespace Stage

/-- How many turns at most are ahead of a thread once the flag is set. -/
def turnsLeft : Stage → Nat
  | .finished _ => 0
  | .idle => 1
  | .returned _ => 2
  | .testing _ | .joining _ => 3
  | .waking _ | .notifying _ => 4
  | .asleep _ | .locked _ => 5
  | .dozing _ | .locking _ => 6

/-- The driver thread that the call at hand stops. -/
def stops? : Stage → Option Nat
  | .locking (.stop t) | .locked (.stop t) | .notifying (.stop t) | .joining t => some t
  | _ => none

/-- Has joined a driver thread. -/
def joined : Stage → Bool
  | .returned (.joined _) => true
  | _ => false

theorem turnsLeft_woken (a : Stage) : a.woken.turnsLeft ≤ a.turnsLeft := by
  cases a with
  | asleep r => exact Nat.le_succ 4
  | _ => exact Nat.le_refl _

theorem holds_woken (a : Stage) : a.woken.holds = a.holds := by cases a <;> rfl

theorem woken_of_telling {a : Stage} (h : a.telling = true) : a.woken = a := by
  cases a <;> first | rfl | cases h

theorem stops?_woken (a : Stage) : a.woken.stops? = a.stops? := by cases a <;> rfl

theorem joined_woken (a : Stage) : a.woken.joined = a.joined := by cases a <;> rfl

end Stage

/-- How many turns at most are ahead of some threads together. -/
def turnsOf : List Thread → Nat
  | [] => 0
  | thread :: threads => thread.stage.turnsLeft + turnsOf threads

/-- How many turns at most are ahead of the threads of a session once the flag is set. -/
def turnsLeft (s : Monitor) : Nat := turnsOf s.threads

variable {m : Machine} {s s' : Monitor} {t u : Nat} {role : Role} {a b c : Stage}
  {schedule : List Action}

theorem turnsOf_modify {threads : List Thread} (h : threads[t]? = some ⟨role, a⟩) (b : Stage) :
    turnsOf (threads.modify t fun thread => { thread with stage := b }) + a.turnsLeft =
      turnsOf threads + b.turnsLeft := by
  induction threads generalizing t with
  | nil => cases h
  | cons thread threads ih =>
    cases t with
    | zero =>
      cases h
      simp only [List.modify_zero_cons, turnsOf]
      omega
    | succ t =>
      have hrest := ih h
      simp only [List.modify_succ_cons, turnsOf]
      omega

theorem turnsOf_wake_le (threads : List Thread) :
    turnsOf (threads.map Thread.wake) ≤ turnsOf threads := by
  induction threads with
  | nil => exact Nat.le_refl _
  | cons thread threads ih =>
    have hwoken := thread.stage.turnsLeft_woken
    simp only [List.map_cons, turnsOf, Thread.wake_eq]
    omega

namespace Turn

/-- Whoever goes on with the flag set comes nearer to its end. -/
theorem turnsLeft_stage_lt (h : Turn s t role a b s') (hs : s.shutDown = true)
    (hcall : role = .client → a.resting = false) : b.turnsLeft < a.turnsLeft := by
  cases h with
  | call ha => cases (hcall rfl).symm.trans ha
  | round _ hopen | doze _ hopen => cases hs.symm.trans hopen
  | _ => simp [Stage.turnsLeft]

theorem turnsLeft_lt (h : Turn s t role a b s') (ha : s.threads[t]? = some ⟨role, a⟩)
    (hs : s.shutDown = true) (hcall : role = .client → a.resting = false) :
    s'.turnsLeft < s.turnsLeft := by
  have hstage := h.turnsLeft_stage_lt hs hcall
  unfold turnsLeft
  rw [h.threads_eq]
  split
  · rename_i htelling
    have hself : (s.threads.map Thread.wake)[t]? = some ⟨role, a⟩ := by
      rw [List.getElem?_map, ha, Option.map_some, Thread.wake_eq, Stage.woken_of_telling htelling]
    have hsum := turnsOf_modify hself b
    have hwoken := turnsOf_wake_le s.threads
    omega
  · have hsum := turnsOf_modify ha b
    omega

theorem shutDown_eq_true (h : Turn s t role a b s') (hs : s.shutDown = true) :
    s'.shutDown = true := by
  cases h with
  | call => exact (Bool.or_eq_true _ _).mpr (.inr hs)
  | _ => exact hs

/-- A turn takes the lock into a stage that holds it, passes on who has it, or releases it. -/
theorem holder_cases (h : Turn s t role a b s') : s'.holder = none ∨
    s'.holder = some t ∧ b.holds = true ∨ s'.holder = s.holder ∧ b.holds = a.holds := by
  cases h with
  | lock | relock => exact .inr (.inl ⟨rfl, rfl⟩)
  | execute | executeBlocking | setKey | tick | beeping | unlock | resume | giveUp | sleep =>
    exact .inl rfl
  | call ha => cases a <;> first | exact .inr (.inr ⟨rfl, rfl⟩) | cases ha
  | _ => exact .inr (.inr ⟨rfl, rfl⟩)

/-- Only clients stop driver threads. -/
theorem stops?_eq_none (h : Turn s t role a b s') (hr : role ≠ .client) (ha : a.stops? = none) :
    b.stops? = none := by
  cases h with
  | call => exact absurd rfl hr
  | @round _ c hc => cases role <;> cases hc <;> rfl
  | @lock _ c | @unlock _ c => cases c <;> first | rfl | cases ha
  | tellStop => cases ha
  | _ => rfl

theorem stops?_or_joined (h : Turn s t role a b s') (ha : a.stops? = some u) :
    b.stops? = some u ∨ b.joined = true := by
  cases h with
  | @lock _ c | @unlock _ c => cases c <;> exact .inl ha
  | tellStop => exact .inl ha
  | join => exact .inr rfl
  | @tell _ c hc => cases c <;> first | exact absurd rfl (hc _) | cases ha
  | call hresting =>
    cases a with
    | idle | returned => cases ha
    | _ => cases hresting
  | _ => cases ha

end Turn

/-- Clients between calls do nothing by themselves. -/
theorem resting_of_advance (h : s.advance? t = some s') (ht : s.threads[t]? = some ⟨.client, a⟩) :
    a.resting = false := by
  unfold advance? at h
  rw [ht] at h
  cases a <;> first | rfl | cases h

/-- Whoever has the lock is in a stage that holds it, and only clients stop driver threads. -/
structure Orderly (s : Monitor) : Prop where
  holder : ∀ t, s.holder = some t → ∃ a : Stage, s.stage? t = some a ∧ a.holds = true
  client : ∀ (t : Nat) (role : Role) (a : Stage), s.threads[t]? = some ⟨role, a⟩ →
    role ≠ .client → a.stops? = none

namespace Orderly

theorem start (m : Machine) : Orderly (Monitor.start m) := by
  constructor
  · intro t ht
    cases ht
  · intro t role a ht hr
    cases t <;> cases ht
    exact absurd rfl hr

theorem spawn (h : Orderly s) (role : Role) : Orderly (s.spawn role) := by
  constructor
  · intro t ht
    obtain ⟨a, ha, hholds⟩ := h.holder t ht
    exact ⟨a, stage?_spawn ha role, hholds⟩
  · intro t role' a ht hr
    rcases thread_of_spawn ht with hbefore | hnew
    · exact h.client t role' a hbefore hr
    · cases hnew
      rfl

variable (h : Orderly s) (hturn : Turn s t role a b s') (ha : s.threads[t]? = some ⟨role, a⟩)

include h hturn ha

theorem holder_turn (hu : s'.holder = some u) : ∃ c, s'.stage? u = some c ∧ c.holds = true := by
  have hself := stage?_of_thread (hturn.thread_self ha)
  rcases hturn.holder_cases with hnone | ⟨ht, hholds⟩ | ⟨hsame, hholds⟩
  · cases hnone.symm.trans hu
  · cases ht.symm.trans hu
    exact ⟨b, hself, hholds⟩
  · obtain ⟨c, hc, hcholds⟩ := h.holder u (hsame.symm.trans hu)
    by_cases htu : u = t
    · subst htu
      cases hc.symm.trans (stage?_of_thread ha)
      exact ⟨b, hself, hholds.trans hcholds⟩
    · have hother := hturn.stage?_other htu
      rw [hc] at hother
      split at hother
      · exact ⟨c.woken, hother, c.holds_woken.trans hcholds⟩
      · exact ⟨c, hother, hcholds⟩

theorem turn : Orderly s' := by
  constructor
  · exact fun u hu => h.holder_turn hturn ha hu
  · intro u role' c hc hr
    by_cases hu : u = t
    · subst hu
      cases hc.symm.trans (hturn.thread_self ha)
      exact hturn.stops?_eq_none hr (h.client u role a ha hr)
    · rw [hturn.thread_other hu] at hc
      split at hc
      · obtain ⟨⟨role'', d⟩, hd, hwake⟩ := Option.map_eq_some_iff.mp hc
        rw [Thread.wake_eq] at hwake
        cases hwake
        exact d.stops?_woken.trans (h.client u _ d hd hr)
      · exact h.client u role' c hc hr

end Orderly

theorem Reachable.orderly (h : Reachable m s) : Orderly s :=
  h.preserves (.start m) (fun _ role hs => hs.spawn role)
    (fun _ _ _ _ _ _ hs hthread hturn => hs.turn hturn hthread)

/-- Nobody can go on by himself. -/
def Stuck (s : Monitor) : Prop := ∀ t, s.advance? t = none

namespace Stuck

theorem holder_eq_none (hstuck : s.Stuck) (h : Orderly s) : s.holder = none := by
  rcases hholder : s.holder with _ | t
  · rfl
  · obtain ⟨a, ha, hholds⟩ := h.holder t hholder
    obtain ⟨role, hthread⟩ := exists_thread ha
    have hnext := hstuck t
    unfold advance? at hnext
    rw [hthread] at hnext
    cases a with
    | locked | testing | dozing => cases hnext
    | _ => cases hholds

/-- With the lock free, it is for a call, another thread's end or a wake-up that a thread waits. -/
theorem stage_cases (hstuck : s.Stuck) (hfree : s.holder = none)
    (ht : s.threads[t]? = some ⟨role, a⟩) :
    role = .client ∧ a.resting = true ∨ (∃ u, a = .joining u) ∨ (∃ r, a = .asleep r) ∨
      ∃ result, a = .finished result := by
  have hnext := hstuck t
  unfold advance? acquire? at hnext
  rw [ht, hfree] at hnext
  cases a with
  | idle => cases role <;> first | exact .inl ⟨rfl, rfl⟩ | cases hnext
  | returned answer =>
    cases role with
    | client => exact .inl ⟨rfl, rfl⟩
    | cpu | timer => rcases answer with ⟨_ | _⟩ | _ | _ | _ <;> cases hnext
  | joining u => exact .inr (.inl ⟨u, rfl⟩)
  | asleep r => exact .inr (.inr (.inl ⟨r, rfl⟩))
  | finished result => exact .inr (.inr (.inr ⟨result, rfl⟩))
  | notifying c => cases c <;> cases hnext
  | locking | locked | testing | dozing | waking => cases hnext

/-- Whoever sleeps has a wake-up ahead, so nobody does. -/
theorem not_asleep (hstuck : s.Stuck) (h : Reachable m s) (hs : s.shutDown = true) {r : Nibble} :
    s.stage? t ≠ some (.asleep r) := by
  intro ht
  obtain ⟨u, c, hc, howing⟩ := h.vigilant.asleep t r ht (.inr hs)
  obtain ⟨role, hthread⟩ := exists_thread hc
  have hfree := hstuck.holder_eq_none h.orderly
  rcases hstuck.stage_cases hfree hthread with ⟨-, hresting⟩ | ⟨w, rfl⟩ | ⟨r, rfl⟩ | ⟨result, rfl⟩
  · cases c with
    | idle | returned => cases howing
    | _ => cases hresting
  all_goals cases howing

/-- Where nobody can go on, the driver threads have ended. -/
theorem finished (hstuck : s.Stuck) (h : Reachable m s) (hs : s.shutDown = true)
    (ht : s.threads[t]? = some ⟨role, a⟩) (hr : role ≠ .client) :
    ∃ result, a = .finished result := by
  have hfree := hstuck.holder_eq_none h.orderly
  rcases hstuck.stage_cases hfree ht with ⟨hclient, -⟩ | ⟨u, rfl⟩ | ⟨r, rfl⟩ | hfinished
  · exact absurd hclient hr
  · cases h.orderly.client t role _ ht hr
  · exact absurd (stage?_of_thread ht) (hstuck.not_asleep h hs)
  · exact hfinished

/-- Where nobody can go on, nobody waits for the end of a driver thread. -/
theorem joined (hstuck : s.Stuck) (h : Reachable m s) (hs : s.shutDown = true)
    (ht : s.threads[t]? = some ⟨role, a⟩) (hr : role ≠ .client)
    (hu : s.threads[u]? = some ⟨.client, c⟩) (hstop : c.stops? = some t ∨ c.joined = true) :
    ∃ result, c = .returned (.joined result) := by
  rcases hstuck.stage_cases (hstuck.holder_eq_none h.orderly) hu with ⟨-, hresting⟩ | ⟨w, rfl⟩ |
      ⟨r, rfl⟩ | ⟨result, rfl⟩
  · rcases hstop with hstop | hjoined
    · cases c with
      | idle | returned => cases hstop
      | _ => cases hresting
    · cases c with
      | returned answer =>
        cases answer with
        | joined result => exact ⟨result, rfl⟩
        | _ => cases hjoined
      | _ => cases hjoined
  · rcases hstop with hstop | hjoined
    · cases hstop
      obtain ⟨result, rfl⟩ := hstuck.finished h hs ht hr
      have hnext := hstuck u
      unfold advance? at hnext
      rw [hu] at hnext
      dsimp only at hnext
      rw [stage?_of_thread ht] at hnext
      cases hnext
    · cases hjoined
  all_goals rcases hstop with hstop | hjoined <;> first | cases hstop | cases hjoined

end Stuck

theorem thread_follow (h : s.follow schedule = some s') (ht : s.threads[t]? = some ⟨role, a⟩) :
    ∃ b, s'.threads[t]? = some ⟨role, b⟩ := by
  apply follow_preserves h (P := fun s => ∃ b, s.threads[t]? = some ⟨role, b⟩) ⟨a, ht⟩
  rintro x - before after hx ⟨a, ha⟩
  rcases thread_act hx ha with ⟨-, b, -, hb⟩ | ⟨-, hb | hb⟩ <;> exact ⟨_, hb⟩

theorem shutDown_act {x : Action} (h : s.act? x = some s') (hs : s.shutDown = true) :
    s'.shutDown = true := by
  rcases act_cases h with ⟨role, rfl⟩ | ⟨t, role, a, b, -, hturn⟩
  · exact hs
  · exact hturn.shutDown_eq_true hs

theorem shutDown_follow (h : s.follow schedule = some s') (hs : s.shutDown = true) :
    s'.shutDown = true :=
  follow_preserves h hs fun _ _ _ _ hx hflag => shutDown_act hx hflag

/-- With the flag set the threads cannot go on for ever. -/
theorem turns_run_out (h : s.follow schedule = some s') (hs : s.shutDown = true)
    (hown : ∀ x ∈ schedule, x.Own) : s'.turnsLeft + schedule.length ≤ s.turnsLeft := by
  induction schedule generalizing s with
  | nil =>
    cases h
    exact Nat.le_refl _
  | cons x schedule ih =>
    obtain ⟨next, hx, hrest⟩ := follow_cons_eq_some.mp h
    obtain ⟨hself, hlater⟩ := List.forall_mem_cons.mp hown
    cases x with
    | advance t =>
      obtain ⟨role, a, b, hthread, hturn⟩ := advance_turn hx
      have hcall : role = .client → a.resting = false := by
        rintro rfl
        exact resting_of_advance hx hthread
      have hless := hturn.turnsLeft_lt hthread hs hcall
      have hbound := ih hrest (hturn.shutDown_eq_true hs) hlater
      rw [List.length_cons]
      omega
    | call | spawn | disturb => cases hself

/-- A client that stops a driver thread goes on with that until it has joined the thread. -/
theorem stops?_or_joined_follow (h : s.follow schedule = some s') (hown : ∀ x ∈ schedule, x.Own)
    (hu : s.threads[u]? = some ⟨.client, a⟩) (hstop : a.stops? = some t ∨ a.joined = true) :
    ∃ b, s'.threads[u]? = some ⟨.client, b⟩ ∧ (b.stops? = some t ∨ b.joined = true) := by
  apply follow_preserves h (P := fun s => ∃ b, s.threads[u]? = some ⟨.client, b⟩ ∧
    (b.stops? = some t ∨ b.joined = true)) ⟨a, hu, hstop⟩
  rintro x hmem before after hx ⟨a, ha, hstop⟩
  rcases thread_act hx ha with ⟨hux, b, hturn, hb⟩ | ⟨-, hb | hb⟩
  · refine ⟨b, hb, ?_⟩
    rcases hstop with hstop | hjoined
    · exact hturn.stops?_or_joined hstop
    · have hself := hown x hmem
      cases x with
      | advance v =>
        cases hux
        have hresting := resting_of_advance hx ha
        cases a with
        | returned => cases hresting
        | _ => cases hjoined
      | call | spawn | disturb => cases hself
  · exact ⟨a, hb, hstop⟩
  · refine ⟨a.woken, hb, ?_⟩
    rwa [Stage.stops?_woken, Stage.joined_woken]

/-- Stopping a driver thread takes a bounded number of turns, whichever thread goes on next. -/
theorem stop_ends (h : Reachable m s) (hs : s.shutDown = true)
    (ht : s.threads[t]? = some ⟨role, a⟩) (hr : role ≠ .client)
    (hu : s.threads[u]? = some ⟨.client, c⟩) (hstop : c.stops? = some t)
    (hown : ∀ x ∈ schedule, x.Own) (hf : s.follow schedule = some s') :
    schedule.length ≤ s.turnsLeft ∧
      (s'.Stuck → ∃ result, s'.stage? u = some (.returned (.joined result))) := by
  have hbound := turns_run_out hf hs hown
  refine ⟨by omega, ?_⟩
  intro hstuck
  obtain ⟨b, hb⟩ := thread_follow hf ht
  obtain ⟨d, hd, hd'⟩ := stops?_or_joined_follow hf hown hu (.inl hstop)
  obtain ⟨result, rfl⟩ := hstuck.joined (h.follow hf) (shutDown_follow hf hs) hb hr hd hd'
  exact ⟨result, stage?_of_thread hd⟩

end Chip8.Monitor
