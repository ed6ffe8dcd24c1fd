import Chip8.Monitor
import Chip8.Proofs.Execution

/-!
What the threads of a session do, one turn at a time. A turn takes one thread from a stage to the
next; of the other threads it can only wake those that sleep. A session is whatever the threads
make of a fresh one, in any order.
-/

namespace Chip8.Monitor

/-- Whether a call begins by shutting the session down. -/
def Call.shutsDown : Call → Bool
  | .shutdown | .stop _ => true
  | _ => false

/-- The call that a driver thread makes over and over. -/
def Role.call? : Role → Option Call
  | .client => none
  | .cpu => some .executeBlocking
  | .timer => some .tick

namespace Stage

/-- Between calls. -/
def resting : Stage → Bool
  | .idle | .returned _ => true
  | _ => false

/-- A thread in this stage holds the lock. -/
def holds : Stage → Bool
  | .locked _ | .testing _ | .dozing _ => true
  | _ => false

/-- Has come to a key wait. -/
def waits : Stage → Bool
  | .testing _ | .dozing _ | .asleep _ | .waking _ => true
  | _ => false

/-- About to wake the sleepers. -/
def telling : Stage → Bool
  | .notifying _ => true
  | _ => false

end Stage

/-- The thread that acts. -/
def Action.thread? : Action → Option Nat
  | .advance t | .call t _ | .disturb t => some t
  | .spawn _ => none

/-- One turn of thread `t`, which goes from stage `a` to stage `b`. -/
inductive Turn (s : Monitor) (t : Nat) : Role → Stage → Stage → Monitor → Prop
  | call {a : Stage} {c : Call} (ha : a.resting = true) :
      Turn s t .client a (.locking c)
        (({ s with shutDown := c.shutsDown || s.shutDown } : Monitor).setStage t (.locking c))
  | round {role : Role} {c : Call} (hc : role.call? = some c) (hs : s.shutDown = false) :
      Turn s t role .idle (.locking c) (s.setStage t (.locking c))
  | stop {role : Role} {c : Call} (hc : role.call? = some c) (hs : s.shutDown = true) :
      Turn s t role .idle (.finished (.ok ())) (s.setStage t (.finished (.ok ())))
  | lock {role : Role} {c : Call} (hl : s.holder = none) :
      Turn s t role (.locking c) (.locked c)
        (({ s with holder := some t } : Monitor).setStage t (.locked c))
  | execute {role : Role} :
      Turn s t role (.locked .execute) (.returned (.step s.machine.step.result))
        (({ s with machine := s.machine.step.machine, holder := none } : Monitor).setStage t
          (.returned (.step s.machine.step.result)))
  | executeBlocking {role : Role} (hr : ∀ r, s.machine.step.result ≠ .ok (.waiting r)) :
      Turn s t role (.locked .executeBlocking) (.returned (.step s.machine.step.result))
        (({ s with machine := s.machine.step.machine, holder := none } : Monitor).setStage t
          (.returned (.step s.machine.step.result)))
  | suspend {role : Role} {r : Nibble} (hr : s.machine.step.result = .ok (.waiting r)) :
      Turn s t role (.locked .executeBlocking) (.testing r)
        (({ s with machine := s.machine.step.machine } : Monitor).setStage t (.testing r))
  | setKey {role : Role} {k : Nibble} {pressed : Bool} :
      Turn s t role (.locked (.setKey k pressed)) (.notifying (.setKey k pressed))
        (({ s with machine := s.machine.setKey k pressed, holder := none } : Monitor).setStage t
          (.notifying (.setKey k pressed)))
  | tick {role : Role} :
      Turn s t role (.locked .tick) (.returned .done)
        (({ s with machine := s.machine.tick, holder := none } : Monitor).setStage t
          (.returned .done))
  | beeping {role : Role} :
      Turn s t role (.locked .beeping) (.returned (.beep s.machine.beeping))
        (s.release.setStage t (.returned (.beep s.machine.beeping)))
  /-- The lock is taken and released for the sleepers' sake: none of them is then between its last
  look at the flag and its sleep. -/
  | unlock {role : Role} {c : Call} (hc : c.shutsDown = true) :
      Turn s t role (.locked c) (.notifying c) (s.release.setStage t (.notifying c))
  | resume {role : Role} {r : Nibble} (hw : s.machine.awaiting = none) :
      Turn s t role (.testing r) (.returned (.step (.ok .advanced)))
        (s.release.setStage t (.returned (.step (.ok .advanced))))
  | giveUp {role : Role} {r : Nibble} (hw : s.machine.awaiting ≠ none) (hs : s.shutDown = true) :
      Turn s t role (.testing r) (.returned (.step (.ok (.waiting r))))
        (s.release.setStage t (.returned (.step (.ok (.waiting r)))))
  | doze {role : Role} {r : Nibble} (hw : s.machine.awaiting ≠ none) (hs : s.shutDown = false) :
      Turn s t role (.testing r) (.dozing r) (s.setStage t (.dozing r))
  | sleep {role : Role} {r : Nibble} :
      Turn s t role (.dozing r) (.asleep r) (s.release.setStage t (.asleep r))
  | disturb {role : Role} {r : Nibble} :
      Turn s t role (.asleep r) (.waking r) (s.setStage t (.waking r))
  | relock {role : Role} {r : Nibble} (hl : s.holder = none) :
      Turn s t role (.waking r) (.testing r)
        (({ s with holder := some t } : Monitor).setStage t (.testing r))
  | tell {role : Role} {c : Call} (hc : ∀ u, c ≠ .stop u) :
      Turn s t role (.notifying c) (.returned .done) (s.notifyAll.setStage t (.returned .done))
  | tellStop {role : Role} {u : Nat} :
      Turn s t role (.notifying (.stop u)) (.joining u) (s.notifyAll.setStage t (.joining u))
  | join {role : Role} {u : Nat} {result : Except StepError Unit}
      (hu : s.stage? u = some (.finished result)) :
      Turn s t role (.joining u) (.returned (.joined result))
        (s.setStage t (.returned (.joined result)))
  | fail {role : Role} {e : StepError} (hr : role ≠ .client) :
      Turn s t role (.returned (.step (.error e))) (.finished (.error e))
        (s.setStage t (.finished (.error e)))
  | again {role : Role} {answer : Answer} (hr : role ≠ .client)
      (ha : ∀ e, answer ≠ .step (.error e)) :
      Turn s t role (.returned answer) .idle (s.setStage t .idle)

variable {s s' : Monitor} {t u : Nat} {role : Role} {a b : Stage}

theorem stage?_of_thread (h : s.threads[t]? = some ⟨role, a⟩) : s.stage? t = some a := by
  rw [stage?, h]
  rfl

theorem exists_thread (h : s.stage? t = some a) : ∃ role, s.threads[t]? = some ⟨role, a⟩ := by
  obtain ⟨⟨role, _⟩, hthread, rfl⟩ := Option.map_eq_some_iff.mp h
  exact ⟨role, hthread⟩

theorem call_turn {c : Call} (h : s.call? t c = some s') :
    ∃ a, s.threads[t]? = some ⟨.client, a⟩ ∧ Turn s t .client a (.locking c) s' := by
  unfold call? at h
  split at h
  · rename_i hthread
    cases h
    refine ⟨.idle, hthread, ?_⟩
    cases c <;> exact .call rfl
  · rename_i answer hthread
    cases h
    refine ⟨.returned answer, hthread, ?_⟩
    cases c <;> exact .call rfl
  · cases h

theorem work_turn (s : Monitor) (t : Nat) (role : Role) (c : Call) :
    ∃ b, Turn s t role (.locked c) b (s.work t c) := by
  cases c with
  | execute => exact ⟨_, .execute⟩
  | executeBlocking =>
    unfold work
    dsimp only
    split
    · rename_i r hr
      exact ⟨_, .suspend hr⟩
    · rename_i hr
      exact ⟨_, .executeBlocking hr⟩
  | setKey k pressed => exact ⟨_, .setKey⟩
  | tick => exact ⟨_, .tick⟩
  | beeping => exact ⟨_, .beeping⟩
  | shutdown => exact ⟨_, .unlock rfl⟩
  | stop u => exact ⟨_, .unlock rfl⟩

theorem test_turn (s : Monitor) (t : Nat) (role : Role) (r : Nibble) :
    ∃ b, Turn s t role (.testing r) b (s.test t r) := by
  unfold test
  rcases hw : s.machine.awaiting with _ | x
  · exact ⟨_, .resume hw⟩
  · have hwaits : s.machine.awaiting ≠ none := by
      rw [hw]
      exact Option.some_ne_none x
    dsimp only
    split
    · rename_i hs
      exact ⟨_, .giveUp hwaits hs⟩
    · rename_i hs
      exact ⟨_, .doze hwaits (Bool.eq_false_iff.mpr hs)⟩

theorem round_turn {c : Call} (s : Monitor) (t : Nat) (hc : role.call? = some c) :
    ∃ b, Turn s t role .idle b (s.nextRound t c) := by
  unfold nextRound
  rcases hs : s.shutDown with _ | _
  · exact ⟨_, .round hc hs⟩
  · exact ⟨_, .stop hc hs⟩

theorem advance_turn (h : s.advance? t = some s') :
    ∃ role a b, s.threads[t]? = some ⟨role, a⟩ ∧ Turn s t role a b s' := by
  unfold advance? at h
  rcases hthread : s.threads[t]? with _ | ⟨role, a⟩ <;> rw [hthread] at h
  · cases h
  · suffices hturn : ∃ b, Turn s t role a b s' by
      obtain ⟨b, hturn⟩ := hturn
      exact ⟨role, a, b, rfl, hturn⟩
    dsimp only at h
    cases a with
    | idle =>
      cases role with
      | client => cases h
      | cpu | timer =>
        cases h
        exact s.round_turn t rfl
    | locking c =>
      unfold acquire? at h
      dsimp only at h
      split at h <;> cases h
      exact ⟨_, .lock ‹_›⟩
    | locked c =>
      cases h
      exact s.work_turn t role c
    | testing r =>
      cases h
      exact s.test_turn t role r
    | dozing r =>
      cases h
      exact ⟨_, .sleep⟩
    | asleep r => cases h
    | waking r =>
      unfold acquire? at h
      dsimp only at h
      split at h <;> cases h
      exact ⟨_, .relock ‹_›⟩
    | notifying c =>
      cases c with
      | stop u =>
        cases h
        exact ⟨_, .tellStop⟩
      | _ =>
        cases h
        exact ⟨_, .tell nofun⟩
    | joining u =>
      dsimp only at h
      split at h <;> cases h
      exact ⟨_, .join ‹_›⟩
    | returned answer =>
      cases role with
      | client => cases h
      | cpu | timer =>
        rcases answer with ⟨_ | _⟩ | _ | _ | _ <;> cases h
        · exact ⟨_, .fail nofun⟩
        all_goals exact ⟨_, .again nofun nofun⟩
    | finished result => cases h

theorem disturb_turn (h : s.disturb? t = some s') :
    ∃ role a b, s.threads[t]? = some ⟨role, a⟩ ∧ Turn s t role a b s' := by
  unfold disturb? at h
  split at h <;> cases h
  rename_i r hr
  obtain ⟨role, hthread⟩ := exists_thread hr
  exact ⟨role, _, _, hthread, .disturb⟩

theorem turn_of_act {x : Action} (h : s.act? x = some s') (ht : x.thread? = some t) :
    ∃ role a b, s.threads[t]? = some ⟨role, a⟩ ∧ Turn s t role a b s' := by
  cases x with
  | advance u =>
    cases ht
    exact advance_turn h
  | call u c =>
    cases ht
    obtain ⟨a, hthread, hturn⟩ := call_turn h
    exact ⟨.client, a, _, hthread, hturn⟩
  | spawn role => cases ht
  | disturb u =>
    cases ht
    exact disturb_turn h

theorem spawn_of_act {x : Action} (h : s.act? x = some s') (hx : x.thread? = none) :
    ∃ role, s' = s.spawn role := by
  cases x with
  | spawn role =>
    cases h
    exact ⟨role, rfl⟩
  | advance | call | disturb => cases hx

/-- An action brings a new thread or is the turn of one. -/
theorem act_cases {x : Action} (h : s.act? x = some s') :
    (∃ role, s' = s.spawn role) ∨
    ∃ t role a b, s.threads[t]? = some ⟨role, a⟩ ∧ Turn s t role a b s' := by
  rcases hx : x.thread? with _ | t
  · exact .inl (spawn_of_act h hx)
  · exact .inr ⟨t, turn_of_act h hx⟩

/-- What becomes of a thread when the sleepers are woken. -/
def Stage.woken : Stage → Stage
  | .asleep r => .waking r
  | a => a

theorem Thread.wake_eq (thread : Thread) :
    thread.wake = ⟨thread.role, thread.stage.woken⟩ := by
  obtain ⟨role, a⟩ := thread
  cases a <;> rfl

theorem thread_spawn {thread : Thread} (h : s.threads[u]? = some thread) (role : Role) :
    (s.spawn role).threads[u]? = some thread := by
  unfold spawn
  rw [List.getElem?_append_left (List.getElem?_eq_some_iff.mp h).1]
  exact h

theorem thread_of_spawn {thread : Thread} (h : (s.spawn role).threads[u]? = some thread) :
    s.threads[u]? = some thread ∨ thread = ⟨role, .idle⟩ := by
  unfold spawn at h
  rw [List.getElem?_append] at h
  split at h
  · exact .inl h
  · rw [List.getElem?_singleton] at h
    split at h <;> cases h
    exact .inr rfl

theorem stage?_spawn (h : s.stage? u = some a) (role : Role) :
    (s.spawn role).stage? u = some a := by
  obtain ⟨_, hthread⟩ := exists_thread h
  exact stage?_of_thread (thread_spawn hthread role)

theorem stage?_of_spawn (h : (s.spawn role).stage? u = some a) :
    s.stage? u = some a ∨ a = .idle := by
  obtain ⟨_, hthread⟩ := exists_thread h
  rcases thread_of_spawn hthread with hbefore | hnew
  · exact .inl (stage?_of_thread hbefore)
  · cases hnew
    exact .inr rfl

namespace Turn

theorem threads_eq (h : Turn s t role a b s') :
    s'.threads = (if a.telling then s.threads.map Thread.wake else s.threads).modify t
      fun thread => { thread with stage := b } := by
  cases h with
  | call ha => cases a <;> first | rfl | cases ha
  | _ => rfl

theorem thread_self {own : Role} (h : Turn s t role a b s') (ha : s.threads[t]? = some ⟨own, a⟩) :
    s'.threads[t]? = some ⟨own, b⟩ := by
  rw [h.threads_eq, List.getElem?_modify_eq]
  split
  · rw [List.getElem?_map, ha, Option.map_some, Thread.wake_eq]
    rfl
  · rw [ha]
    rfl

/-- The other threads stay where they are, but for sleepers that are woken. -/
theorem thread_other (h : Turn s t role a b s') (hu : u ≠ t) :
    s'.threads[u]? = if a.telling then s.threads[u]?.map Thread.wake else s.threads[u]? := by
  rw [h.threads_eq, List.getElem?_modify_ne _ _ hu.symm]
  split
  · exact List.getElem?_map ..
  · rfl

theorem stage?_self (h : Turn s t role a b s') (ha : s.stage? t = some a) :
    s'.stage? t = some b := by
  obtain ⟨own, hthread⟩ := exists_thread ha
  exact stage?_of_thread (h.thread_self hthread)

theorem stage?_other (h : Turn s t role a b s') (hu : u ≠ t) :
    s'.stage? u = if a.telling then (s.stage? u).map Stage.woken else s.stage? u := by
  unfold stage?
  rw [h.thread_other hu]
  split
  · rw [Option.map_map, Option.map_map]
    congr 1
    funext thread
    exact congrArg Thread.stage thread.wake_eq
  · rfl

end Turn

/-- To a thread an action is its own turn, or leaves it where it is, or wakes it. -/
theorem thread_act {x : Action} (h : s.act? x = some s') (ht : s.threads[t]? = some ⟨role, a⟩) :
    (x.thread? = some t ∧ ∃ b, Turn s t role a b s' ∧ s'.threads[t]? = some ⟨role, b⟩) ∨
    (x.thread? ≠ some t ∧
      (s'.threads[t]? = some ⟨role, a⟩ ∨ s'.threads[t]? = some ⟨role, a.woken⟩)) := by
  rcases hx : x.thread? with _ | u
  · obtain ⟨other, rfl⟩ := spawn_of_act h hx
    exact .inr ⟨nofun, .inl (thread_spawn ht other)⟩
  · obtain ⟨role', c, b, hthread, hturn⟩ := turn_of_act h hx
    by_cases hu : u = t
    · subst hu
      cases hthread.symm.trans ht
      exact .inl ⟨rfl, b, hturn, hturn.thread_self ht⟩
    · have hother := hturn.thread_other (Ne.symm hu)
      rw [ht] at hother
      refine .inr ⟨fun hsame => hu (Option.some.inj hsame), ?_⟩
      split at hother
      · rw [Option.map_some, Thread.wake_eq] at hother
        exact .inr hother
      · exact .inl hother

/-- The sessions that the threads can come to, whichever of them acts next. -/
inductive Reachable (m : Machine) : Monitor → Prop
  | start : Reachable m (.start m)
  | act {s s' : Monitor} {x : Action} (h : Reachable m s) (hx : s.act? x = some s') :
      Reachable m s'

/-- The session after a schedule; `none` if one of its actions cannot happen. -/
def follow (s : Monitor) : List Action → Option Monitor
  | [] => some s
  | x :: schedule => (s.act? x).bind (follow · schedule)

/-- The property holds at every point of a schedule. -/
def Throughout (p : Monitor → Prop) (s : Monitor) : List Action → Prop
  | [] => p s
  | x :: schedule =>
    p s ∧ match s.act? x with
      | none => True
      | some s' => s'.Throughout p schedule

/-- What can be seen of the actions of a schedule, in order, as far as they can happen. -/
def observe {α : Type} (f : Monitor → Action → Option α) (s : Monitor) : List Action → List α
  | [] => []
  | x :: schedule =>
    match s.act? x with
    | none => []
    | some s' => (f s x).toList ++ s'.observe f schedule

theorem follow_cons_eq_some {x : Action} {schedule : List Action} :
    s.follow (x :: schedule) = some s' ↔
      ∃ next, s.act? x = some next ∧ next.follow schedule = some s' :=
  Option.bind_eq_some_iff

theorem follow_append (s : Monitor) (before after : List Action) :
    s.follow (before ++ after) = (s.follow before).bind (follow · after) := by
  induction before generalizing s with
  | nil => rfl
  | cons x before ih =>
    simp only [List.cons_append, follow, Option.bind_assoc]
    congr 1
    funext next
    exact ih next

theorem follow_concat_eq_some {x : Action} {before : List Action} :
    s.follow (before ++ [x]) = some s' ↔
      ∃ next, s.follow before = some next ∧ next.act? x = some s' := by
  have hsingle : ∀ next : Monitor, next.follow [x] = next.act? x := fun _ => Option.bind_fun_some _
  rw [follow_append, Option.bind_eq_some_iff]
  simp only [hsingle]

/-- What every action of a schedule preserves, the schedule preserves. -/
theorem follow_preserves {P : Monitor → Prop} {schedule : List Action}
    (h : s.follow schedule = some s') (hs : P s)
    (hact : ∀ x ∈ schedule, ∀ before after : Monitor, before.act? x = some after →
      P before → P after) : P s' := by
  induction schedule generalizing s with
  | nil =>
    cases h
    exact hs
  | cons x schedule ih =>
    obtain ⟨next, hx, hrest⟩ := follow_cons_eq_some.mp h
    obtain ⟨hself, hlater⟩ := List.forall_mem_cons.mp hact
    exact ih hrest (hself s next hx hs) hlater

theorem observe_cons {α : Type} {f : Monitor → Action → Option α} {x : Action}
    (h : s.act? x = some s') (schedule : List Action) :
    s.observe f (x :: schedule) = (f s x).toList ++ s'.observe f schedule := by
  rw [observe, h]

theorem observe_append {α : Type} {f : Monitor → Action → Option α} {before : List Action}
    (h : s.follow before = some s') (after : List Action) :
    s.observe f (before ++ after) = s.observe f before ++ s'.observe f after := by
  induction before generalizing s with
  | nil =>
    cases h
    rfl
  | cons x before ih =>
    obtain ⟨next, hx, hrest⟩ := follow_cons_eq_some.mp h
    rw [List.cons_append, observe_cons hx, observe_cons hx, ih hrest, List.append_assoc]

variable {m : Machine}

theorem Reachable.follow {schedule : List Action} (h : Reachable m s)
    (hs : s.follow schedule = some s') : Reachable m s' :=
  follow_preserves hs h fun _ _ _ _ hx hreachable => hreachable.act hx

/-- What a new thread and every turn preserve, a session keeps from its start. -/
theorem Reachable.preserves {P : Monitor → Prop} (h : Reachable m s) (hstart : P (.start m))
    (hspawn : ∀ s role, P s → P (s.spawn role))
    (hturn : ∀ s s' t role a b, P s → s.threads[t]? = some ⟨role, a⟩ →
      Turn s t role a b s' → P s') : P s := by
  induction h with
  | start => exact hstart
  | act _ hx ih =>
    rcases act_cases hx with ⟨role, rfl⟩ | ⟨t, role, a, b, hthread, hmove⟩
    · exact hspawn _ role ih
    · exact hturn _ _ t role a b ih hthread hmove

end Chip8.Monitor
