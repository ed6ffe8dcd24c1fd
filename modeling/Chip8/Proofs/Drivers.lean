import Mathlib.Data.List.Induction
import Chip8.Proofs.ShutDown

/-!
Driver threads. What such a thread does to the machine are its deeds, steps and ticks. The stage
that it is in bounds the deeds that are to come once the flag is set, and tells whether a step has
failed: a failure is the last deed, and it is what a client gets who stops the thread.
-/

namespace Chip8.Monitor

/-- What a driver thread does to the machine. -/
inductive Deed where
  | step (result : Except StepError Outcome)
  | tick

def Deed.error? : Deed → Option StepError
  | .step (.error e) => some e
  | _ => none

theorem Deed.error?_eq_some {d : Deed} {e : StepError} :
    d.error? = some e ↔ d = .step (.error e) := by
  constructor
  · intro h
    rcases d with ⟨_ | _⟩ | _ <;> cases h
    rfl
  · rintro rfl
    rfl

namespace Stage

/-- What a thread in this stage is about to do to machine `m`. -/
def deed? (m : Machine) : Stage → Option Deed
  | .locked .execute | .locked .executeBlocking => some (.step m.step.result)
  | .locked .tick => some .tick
  | _ => none

/-- How many deeds of a driver thread are to come at most, once the flag is set. -/
def deedsLeft : Stage → Nat
  | .locking _ | .locked _ => 1
  | _ => 0

/-- The error of the step that ends the thread. -/
def failure? : Stage → Option StepError
  | .returned (.step (.error e)) | .finished (.error e) => some e
  | _ => none

theorem deedsLeft_le_one (a : Stage) : a.deedsLeft ≤ 1 := by
  cases a <;> first | exact Nat.le_refl 1 | exact Nat.zero_le 1

theorem deedsLeft_of_waits {a : Stage} (h : a.waits = true) : a.deedsLeft = 0 := by
  cases a <;> first | rfl | cases h

theorem deedsLeft_woken (a : Stage) : a.woken.deedsLeft = a.deedsLeft := by cases a <;> rfl

theorem failure?_woken (a : Stage) : a.woken.failure? = a.failure? := by cases a <;> rfl

end Stage

/-- What thread `t` does to the machine by an action. -/
def deed? (t : Nat) (s : Monitor) (x : Action) : Option Deed :=
  if x.thread? = some t then (s.stage? t).bind (Stage.deed? s.machine) else none

/-- What thread `t` does to the machine in the course of a schedule. -/
def deeds (t : Nat) (s : Monitor) (schedule : List Action) : List Deed :=
  s.observe (deed? t) schedule

variable {m : Machine} {s s' : Monitor} {t u : Nat} {role : Role} {a b c : Stage} {x : Action}
  {before schedule : List Action} {e : StepError}

theorem deed?_self (hx : x.thread? = some t) (ht : s.threads[t]? = some ⟨role, a⟩) :
    deed? t s x = a.deed? s.machine := by
  rw [deed?, if_pos hx, stage?_of_thread ht, Option.bind_some]

theorem deed?_absent (ht : s.threads[t]? = none) : deed? t s x = none := by
  rw [deed?, stage?, ht]
  exact ite_self _

theorem deed?_other (hx : x.thread? ≠ some t) : deed? t s x = none := if_neg hx

namespace Turn

theorem deedsLeft_le (h : Turn s t role a b s') (hr : role ≠ .client) (hs : s.shutDown = true) :
    (a.deed? s.machine).toList.length + b.deedsLeft ≤ a.deedsLeft := by
  cases h with
  | call => exact absurd rfl hr
  | round _ hopen => cases hs.symm.trans hopen
  | @unlock _ c hc => cases c <;> first | exact Nat.zero_le 1 | cases hc
  | _ => simp [Stage.deed?, Stage.deedsLeft]

/-- A step that fails shows in the stage of the driver thread from then on. -/
theorem failure?_eq (h : Turn s t role a b s') (hr : role ≠ .client) :
    b.failure?.toList = a.failure?.toList ++ ((a.deed? s.machine).bind Deed.error?).toList := by
  cases h with
  | call => exact absurd rfl hr
  | execute | executeBlocking =>
    rcases hresult : s.machine.step.result with _ | _ <;>
      simp [Stage.failure?, Stage.deed?, Deed.error?, hresult]
  | suspend hresult => simp [Stage.failure?, Stage.deed?, Deed.error?, hresult]
  | @unlock _ c hc => cases c <;> first | rfl | cases hc
  | @again _ answer _ hgood =>
    rcases answer with ⟨_ | _⟩ | _ | _ | _ <;> first | rfl | exact absurd rfl (hgood _)
  | _ => rfl

/-- Nothing comes after a failure. -/
theorem deed?_of_failure (h : Turn s t role a b s') (he : a.failure? = some e) :
    a.deed? s.machine = none := by
  cases a <;> first | rfl | cases he

theorem not_finished {result : Except StepError Unit} :
    ¬Turn s t role (.finished result) b s' := by
  intro h
  cases h with
  | call ha => cases ha

end Turn

theorem deeds_cons (h : s.act? x = some s') (later : List Action) :
    deeds t s (x :: later) = (deed? t s x).toList ++ deeds t s' later := observe_cons h later

theorem deeds_cons_of_none (h : s.act? x = none) (later : List Action) :
    deeds t s (x :: later) = [] := by
  rw [deeds, observe, h]

theorem deeds_concat {next : Monitor} (h : s.follow before = some next)
    (hx : next.act? x = some s') :
    deeds t s (before ++ [x]) = deeds t s before ++ (deed? t next x).toList := by
  have hlast : deeds t next [x] = (deed? t next x).toList := by
    rw [deeds_cons hx]
    exact List.append_nil _
  rw [← hlast]
  exact observe_append h [x]

/-- Once the flag is set, the stage of a driver thread bounds its deeds. -/
theorem length_deeds_le (hs : s.shutDown = true) (ht : s.threads[t]? = some ⟨role, a⟩)
    (hr : role ≠ .client) (later : List Action) : (deeds t s later).length ≤ a.deedsLeft := by
  induction later generalizing s a with
  | nil => exact Nat.zero_le _
  | cons x later ih =>
    rcases hx : s.act? x with _ | next
    · rw [deeds_cons_of_none hx]
      exact Nat.zero_le _
    · rw [deeds_cons hx, List.length_append]
      have hflag := shutDown_act hx hs
      rcases thread_act hx ht with ⟨hself, b, hturn, hnext⟩ | ⟨hother, hnext | hnext⟩
      · have hrest := ih hflag hnext
        have hless := hturn.deedsLeft_le hr hs
        rw [deed?_self hself ht]
        omega
      · rw [deed?_other hother]
        simpa using ih hflag hnext
      · rw [deed?_other hother, ← a.deedsLeft_woken]
        simpa using ih hflag hnext

theorem deeds_eq_nil (hs : s.shutDown = true) (ht : s.threads[t]? = some ⟨role, a⟩)
    (hr : role ≠ .client) (ha : a.deedsLeft = 0) (later : List Action) : deeds t s later = [] := by
  have hnone := length_deeds_le hs ht hr later
  rw [ha] at hnone
  exact List.length_eq_zero_iff.mp (Nat.le_zero.mp hnone)

theorem finished_act {result : Except StepError Unit} (h : s.act? x = some s')
    (ht : s.threads[t]? = some ⟨role, .finished result⟩) :
    x.thread? ≠ some t ∧ s'.threads[t]? = some ⟨role, .finished result⟩ := by
  rcases thread_act h ht with ⟨-, b, hturn, -⟩ | ⟨hother, hnext | hnext⟩
  · exact absurd hturn Turn.not_finished
  · exact ⟨hother, hnext⟩
  · exact ⟨hother, hnext⟩

theorem deeds_of_finished {result : Except StepError Unit}
    (ht : s.threads[t]? = some ⟨role, .finished result⟩) (later : List Action) :
    deeds t s later = [] := by
  induction later generalizing s with
  | nil => rfl
  | cons x later ih =>
    rcases hx : s.act? x with _ | next
    · exact deeds_cons_of_none hx later
    · obtain ⟨hother, hnext⟩ := finished_act hx ht
      rw [deeds_cons hx, deed?_other hother, ih hnext]
      rfl

/-- A thread that comes is between two calls. -/
theorem thread_of_act_none (h : s.act? x = some s') (ht : s.threads[t]? = none) :
    s'.threads[t]? = none ∨ ∃ role, s'.threads[t]? = some ⟨role, .idle⟩ := by
  rcases act_cases h with ⟨role, rfl⟩ | ⟨u, role, a, b, hthread, hturn⟩
  · rcases hthread : (s.spawn role).threads[t]? with _ | thread
    · exact .inl rfl
    · rcases thread_of_spawn hthread with hbefore | rfl
      · cases ht.symm.trans hbefore
      · exact .inr ⟨role, rfl⟩
  · have hu : t ≠ u := by
      rintro rfl
      cases ht.symm.trans hthread
    rw [hturn.thread_other hu, ht]
    exact .inl (ite_self _)

/-- What a thread has done to the machine accounts for its stage: if one of its steps has failed,
that was the last of its deeds. -/
def Accounts (deeds : List Deed) (failure : Option StepError) : Prop :=
  deeds.filterMap Deed.error? = failure.toList ∧
    ∀ e, failure = some e → deeds.getLast? = some (.step (.error e))

theorem Accounts.nil : Accounts [] none := ⟨rfl, nofun⟩

theorem Accounts.turn {done : List Deed} (h : Accounts done a.failure?)
    (hturn : Turn s t role a b s') (hr : role ≠ .client) :
    Accounts (done ++ (a.deed? s.machine).toList) b.failure? := by
  have hfailure := hturn.failure?_eq hr
  constructor
  · rw [List.filterMap_append, h.1, hfailure]
    cases a.deed? s.machine with
    | none => rfl
    | some d => cases hd : d.error? <;> simp [hd]
  · intro e he
    rw [he] at hfailure
    rcases ha : a.failure? with _ | e'
    · rw [ha, Option.toList_none, List.nil_append] at hfailure
      have hdeed : (a.deed? s.machine).bind Deed.error? = some e := by
        rw [← Option.mem_toList, ← hfailure]
        exact List.mem_singleton_self e
      obtain ⟨d, hd, hde⟩ := Option.bind_eq_some_iff.mp hdeed
      rw [hd, Deed.error?_eq_some.mp hde]
      exact List.getLast?_concat
    · have hdeed := hturn.deed?_of_failure ha
      rw [ha, hdeed] at hfailure
      cases hfailure
      rw [hdeed, Option.toList_none, List.append_nil]
      exact h.2 e ha

theorem deeds_of_absent (h : s.follow before = some s') (ht : s'.threads[t]? = none) :
    deeds t s before = [] := by
  induction before using List.reverseRecOn generalizing s' with
  | nil => rfl
  | append_singleton before x ih =>
    obtain ⟨next, hbefore, hx⟩ := follow_concat_eq_some.mp h
    rw [deeds_concat hbefore hx]
    rcases hnext : next.threads[t]? with _ | ⟨role, a⟩
    · rw [ih hbefore hnext, deed?_absent hnext]
      rfl
    · rcases thread_act hx hnext with ⟨-, b, -, hthread⟩ | ⟨-, hthread | hthread⟩ <;>
        cases ht.symm.trans hthread

/-- What is seen of a driver thread's deeds from the start on accounts for its stage. -/
theorem accounts (h : (start m).follow before = some s) (ht : s.threads[t]? = some ⟨role, a⟩)
    (hr : role ≠ .client) : Accounts (deeds t (start m) before) a.failure? := by
  induction before using List.reverseRecOn generalizing s role a with
  | nil =>
    cases h
    cases t <;> cases ht
    exact absurd rfl hr
  | append_singleton before x ih =>
    obtain ⟨next, hbefore, hx⟩ := follow_concat_eq_some.mp h
    rw [deeds_concat hbefore hx]
    rcases hnext : next.threads[t]? with _ | ⟨role', c⟩
    · rw [deeds_of_absent hbefore hnext, deed?_absent hnext]
      rcases thread_of_act_none hx hnext with hnone | ⟨other, hnew⟩
      · cases ht.symm.trans hnone
      · cases ht.symm.trans hnew
        exact .nil
    · rcases thread_act hx hnext with ⟨hself, b, hturn, hthread⟩ | ⟨hother, hthread | hthread⟩ <;>
        cases ht.symm.trans hthread
      · rw [deed?_self hself hnext]
        exact (ih hbefore hnext hr).turn hturn hr
      · rw [deed?_other hother, Option.toList_none, List.append_nil]
        exact ih hbefore hnext hr
      · rw [deed?_other hother, Option.toList_none, List.append_nil, Stage.failure?_woken]
        exact ih hbefore hnext hr

theorem Accounts.mem_iff {done : List Deed} {failure : Option StepError}
    (h : Accounts done failure) : .step (.error e) ∈ done ↔ failure = some e := by
  have hmem : e ∈ done.filterMap Deed.error? ↔ .step (.error e) ∈ done := by
    simp only [List.mem_filterMap, Deed.error?_eq_some, exists_eq_right]
  rw [← hmem, h.1, Option.mem_toList]

theorem failure?_finished {result : Except StepError Unit} :
    (Stage.finished result).failure? = some e ↔ result = .error e := by
  cases result <;> simp [Stage.failure?]

theorem finished_of_join (hu : s.stage? u = some (.joining t))
    (hx : s.act? (.advance u) = some s') : ∃ result, s.stage? t = some (.finished result) ∧
      s'.stage? u = some (.returned (.joined result)) := by
  obtain ⟨role, a, b, hthread, hturn⟩ := advance_turn hx
  cases hu.symm.trans (stage?_of_thread hthread)
  have hself := hturn.stage?_self hu
  cases hturn with
  | call ha => cases ha
  | join ht => exact ⟨_, ht, hself⟩

/-- Joining a driver thread gives the error of its last step if that has failed. -/
theorem joined_of_accounts (h : (start m).follow before = some s)
    (ht : s.threads[t]? = some ⟨role, a⟩) (hr : role ≠ .client)
    (hu : s.stage? u = some (.joining t)) (hx : s.act? (.advance u) = some s') :
    (∀ later, deeds t s' later = []) ∧
    ∃ result, s'.stage? u = some (.returned (.joined result)) ∧
      ∀ e, (result = .error e ↔ .step (.error e) ∈ deeds t (start m) before) ∧
        (result = .error e → (deeds t (start m) before).getLast? = some (.step (.error e))) := by
  obtain ⟨result, hfinished, hjoined⟩ := finished_of_join hu hx
  cases hfinished.symm.trans (stage?_of_thread ht)
  have haccounts := accounts h ht hr
  refine ⟨deeds_of_finished (finished_act hx ht).2, result, hjoined, ?_⟩
  intro e
  rw [haccounts.mem_iff, failure?_finished]
  refine ⟨Iff.rfl, ?_⟩
  intro herror
  exact haccounts.2 e (failure?_finished.mpr herror)

/-- A driver thread that comes once the flag is set does nothing to the machine, whatever other
threads there are. -/
theorem deeds_spawn (hs : s.shutDown = true) (hr : role ≠ .client) (later : List Action) :
    deeds s.threads.length (s.spawn role) later = [] := by
  have hflag : (s.spawn role).shutDown = true := hs
  have hcomes : (s.spawn role).threads[s.threads.length]? = some ⟨role, .idle⟩ :=
    List.getElem?_concat_length
  exact deeds_eq_nil hflag hcomes hr rfl later

/-- Once the flag is set no driver thread that comes does anything to the machine. One that is there
does at most one thing to it, and none if it has come to a key wait. Stopping it takes a bounded
number of turns, whichever thread goes on next, and gives the error of its last step if that has
failed. After that it does nothing. -/
theorem drivers_stop (h : (start m).follow before = some s) :
    (s.shutDown = true → ∀ new, new ≠ .client → ∀ later,
      deeds s.threads.length (s.spawn new) later = []) ∧
    ∀ t role a, s.threads[t]? = some ⟨role, a⟩ → role ≠ .client →
      (s.shutDown = true → ∀ later,
        (deeds t s later).length ≤ 1 ∧ (a.waits = true → deeds t s later = [])) ∧
      (s.shutDown = true → ∀ u c, s.threads[u]? = some ⟨.client, c⟩ → c.stops? = some t →
        ∀ own s', (∀ x ∈ own, x.Own) → s.follow own = some s' →
          own.length ≤ s.turnsLeft ∧
          (s'.Stuck → ∃ result, s'.stage? u = some (.returned (.joined result)))) ∧
      ∀ u s', s.stage? u = some (.joining t) → s.act? (.advance u) = some s' →
        (∀ later, deeds t s' later = []) ∧
        ∃ result, s'.stage? u = some (.returned (.joined result)) ∧
          ∀ e, (result = .error e ↔ .step (.error e) ∈ deeds t (start m) before) ∧
            (result = .error e →
              (deeds t (start m) before).getLast? = some (.step (.error e))) := by
  have hreachable : Reachable m s := Reachable.start.follow h
  constructor
  · intro hs new hnew later
    exact deeds_spawn hs hnew later
  intro t role a ht hr
  refine ⟨?_, ?_, ?_⟩
  · intro hs later
    constructor
    · exact Nat.le_trans (length_deeds_le hs ht hr later) a.deedsLeft_le_one
    · intro hwaits
      exact deeds_eq_nil hs ht hr (Stage.deedsLeft_of_waits hwaits) later
  · intro hs u c hu hstop own s' hown hfollow
    exact stop_ends hreachable hs ht hr hu hstop hown hfollow
  · intro u s' hu hx
    exact joined_of_accounts h ht hr hu hx

/-- A machine about to return from nowhere. -/
def returning : Machine := { Machine.powerOn {} 0 with
  memory := ⟨overlay Memory.zero.bytes 0x200 [0x00, 0xEE]⟩ }

/-- The client stops the thread that executes after the thread has looked at the flag. -/
def midRound : List Action := [.spawn .cpu, .advance 1, .call 0 (.stop 1)]

/-- The thread executes once more and fails, and the client waits for its end. -/
def failingOnce : List Action :=
  [.advance 1, .advance 1, .advance 0, .advance 1, .advance 0, .advance 0]

theorem drivers_stop_midRound :
    (∃ s, (start returning).follow [.call 0 .shutdown] = some s ∧ s.threads.length = 1 ∧
      s.shutDown = true ∧ ∀ later, deeds 1 (s.spawn .cpu) later = []) ∧
    (∃ s, (start returning).follow midRound = some s ∧ s.shutDown = true ∧
      (∀ later, (deeds 1 s later).length ≤ 1) ∧
      ∀ own s', (∀ x ∈ own, x.Own) → s.follow own = some s' → s'.Stuck →
        ∃ result, s'.stage? 0 = some (.returned (.joined result))) ∧
    ∃ s s', (start returning).follow (midRound ++ failingOnce) = some s ∧
      s.act? (.advance 0) = some s' ∧
      s'.stage? 0 = some (.returned (.joined (.error (.fault .stackUnderflow)))) ∧
      .step (.error (.fault .stackUnderflow)) ∈
        deeds 1 (start returning) (midRound ++ failingOnce) ∧
      ∀ later, deeds 1 s' later = [] := by
  have halone : (start returning).follow [.call 0 .shutdown] =
      some ⟨returning, true, none, [⟨.client, .locking .shutdown⟩]⟩ := rfl
  have hcalled : (start returning).follow midRound = some ⟨returning, true, none,
      [⟨.client, .locking (.stop 1)⟩, ⟨.cpu, .locking .executeBlocking⟩]⟩ := rfl
  have hresult : returning.step.result = .error (.fault .stackUnderflow) := by decide +kernel
  have hfailed : (start returning).follow (midRound ++ failingOnce) =
      some ⟨returning.step.machine, true, none,
        [⟨.client, .joining 1⟩, ⟨.cpu, .finished (.error (.fault .stackUnderflow))⟩]⟩ := by
    rw [follow_append, hcalled]
    simp [failingOnce, follow, act?, advance?, acquire?, work, release, setStage, notifyAll,
      Thread.wake, hresult]
  have hdriver : Role.cpu ≠ .client := by decide
  have hcomes := (drivers_stop halone).1
  obtain ⟨hless, hends, -⟩ := (drivers_stop hcalled).2 1 _ _ rfl hdriver
  obtain ⟨-, -, hjoins⟩ := (drivers_stop hfailed).2 1 _ _ rfl hdriver
  refine ⟨?_, ?_, ?_⟩
  · exact ⟨_, halone, rfl, rfl, hcomes rfl .cpu hdriver⟩
  · refine ⟨_, hcalled, rfl, fun later => (hless rfl later).1, ?_⟩
    intro own s' hown hfollow hstuck
    exact (hends rfl 0 _ rfl rfl own s' hown hfollow).2 hstuck
  · obtain ⟨hnone, result, hjoined, herror⟩ := hjoins 0 _ rfl rfl
    cases hjoined
    exact ⟨_, _, hfailed, rfl, rfl, (herror _).1.mp rfl, hnone⟩

end Chip8.Monitor
