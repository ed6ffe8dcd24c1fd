import Chip8.Machine.Step

/-!
A machine shared by threads. All access goes through one lock. A thread that has come to a key
wait sleeps on a condition with the lock released, and may wake for no reason. A flag, which is
read and set without the lock, shuts the session down.

The threads advance one at a time, in any order: a schedule is a list of actions. Each action is
as small as another thread can tell it from the next, so setting the flag, taking the lock,
changing the machine, deciding to sleep, sleeping and notifying are actions of their own.
-/

namespace Chip8

namespace Monitor

/-- What a client can call. Left out is the bare lock, with which a client has the machine to itself
for a while: it can then change anything in it, and nobody is notified. -/
inductive Call where
  | execute
  /-- Executes, and sleeps through a key wait. -/
  | executeBlocking
  | setKey (k : Nibble) (pressed : Bool)
  | tick
  | beeping
  | shutdown
  /-- Shuts down and waits for the end of a driver thread. -/
  | stop (thread : Nat)
  deriving DecidableEq, Repr

inductive Answer where
  | step (result : Except StepError Outcome)
  | beep (on : Bool)
  | done
  /-- How a driver thread ended. -/
  | joined (result : Except StepError Unit)

/-- Where a thread is. -/
inductive Stage where
  | idle
  /-- Wants the lock. -/
  | locking (c : Call)
  /-- Holds the lock and has done nothing yet. -/
  | locked (c : Call)
  /-- Holds the lock, about to look whether the wait for register `r` is over. -/
  | testing (r : Nibble)
  /-- Holds the lock and has found that it must sleep. -/
  | dozing (r : Nibble)
  | asleep (r : Nibble)
  /-- Awake, and wants the lock back. -/
  | waking (r : Nibble)
  /-- Has made its change and released the lock, but has not told the sleepers. -/
  | notifying (c : Call)
  | joining (thread : Nat)
  | returned (a : Answer)
  /-- The end of a driver thread. -/
  | finished (result : Except StepError Unit)

inductive Role where
  /-- Calls what it likes. -/
  | client
  /-- Executes until the session is shut down or the machine faults. -/
  | cpu
  /-- Ticks until the session is shut down. -/
  | timer
  deriving DecidableEq, Repr

structure Thread where
  role : Role
  stage : Stage

end Monitor

structure Monitor where
  machine : Machine
  shutDown : Bool
  /-- The thread that holds the lock. -/
  holder : Option Nat
  threads : List Monitor.Thread

namespace Monitor

/-- A session with one client. -/
def start (m : Machine) : Monitor := ⟨m, false, none, [⟨.client, .idle⟩]⟩

def stage? (s : Monitor) (t : Nat) : Option Stage := s.threads[t]?.map Thread.stage

def setStage (s : Monitor) (t : Nat) (stage : Stage) : Monitor :=
  { s with threads := s.threads.modify t fun thread => { thread with stage } }

def release (s : Monitor) : Monitor := { s with holder := none }

/-- Takes the lock for thread `t` if it is free. -/
def acquire? (s : Monitor) (t : Nat) (stage : Stage) : Option Monitor :=
  match s.holder with
  | none => some ({ s with holder := some t }.setStage t stage)
  | some _ => none

def Thread.wake (thread : Thread) : Thread :=
  match thread.stage with
  | .asleep r => { thread with stage := .waking r }
  | _ => thread

def notifyAll (s : Monitor) : Monitor := { s with threads := s.threads.map Thread.wake }

/-- What thread `t` does with the lock in its hands. -/
def work (s : Monitor) (t : Nat) : Call → Monitor
  | .execute =>
    let step := s.machine.step
    { s with machine := step.machine }.release.setStage t (.returned (.step step.result))
  | .executeBlocking =>
    let step := s.machine.step
    let s := { s with machine := step.machine }
    match step.result with
    | .ok (.waiting r) => s.setStage t (.testing r)
    | result => s.release.setStage t (.returned (.step result))
  | .setKey k pressed =>
    { s with machine := s.machine.setKey k pressed }.release.setStage t
      (.notifying (.setKey k pressed))
  | .tick => { s with machine := s.machine.tick }.release.setStage t (.returned .done)
  | .beeping => s.release.setStage t (.returned (.beep s.machine.beeping))
  | .shutdown => s.release.setStage t (.notifying .shutdown)
  | .stop thread => s.release.setStage t (.notifying (.stop thread))

/-- A sleeper goes on sleeping while a wait is pending and the session is not shut down. -/
def test (s : Monitor) (t : Nat) (r : Nibble) : Monitor :=
  match s.machine.awaiting with
  | none => s.release.setStage t (.returned (.step (.ok .advanced)))
  | some _ =>
    if s.shutDown then s.release.setStage t (.returned (.step (.ok (.waiting r))))
    else s.setStage t (.dozing r)

/-- The next call of a driver thread, or its end. -/
def nextRound (s : Monitor) (t : Nat) (c : Call) : Monitor :=
  s.setStage t (if s.shutDown then .finished (.ok ()) else .locking c)

/-- One action of thread `t`; `none` if there is nothing for it to do, or it has to wait for the
lock, for a wake-up or for another thread's end. -/
def advance? (s : Monitor) (t : Nat) : Option Monitor :=
  match s.threads[t]? with
  | none => none
  | some thread =>
    match thread.stage, thread.role with
    | .idle, .client => none
    | .idle, .cpu => some (s.nextRound t .executeBlocking)
    | .idle, .timer => some (s.nextRound t .tick)
    | .locking c, _ => s.acquire? t (.locked c)
    | .locked c, _ => some (s.work t c)
    | .testing r, _ => some (s.test t r)
    | .dozing r, _ => some (s.release.setStage t (.asleep r))
    | .asleep _, _ => none
    | .waking r, _ => s.acquire? t (.testing r)
    | .notifying (.stop u), _ => some (s.notifyAll.setStage t (.joining u))
    | .notifying _, _ => some (s.notifyAll.setStage t (.returned .done))
    | .joining u, _ =>
      match s.stage? u with
      | some (.finished result) => some (s.setStage t (.returned (.joined result)))
      | _ => none
    | .returned _, .client => none
    | .returned (.step (.error e)), _ => some (s.setStage t (.finished (.error e)))
    | .returned _, _ => some (s.setStage t .idle)
    | .finished _, _ => none

/-- A client between calls makes one. Shutting down begins with the flag. -/
def call? (s : Monitor) (t : Nat) (c : Call) : Option Monitor :=
  match s.threads[t]? with
  | some ⟨.client, .idle⟩ | some ⟨.client, .returned _⟩ =>
    let s := match c with
      | .shutdown | .stop _ => { s with shutDown := true }
      | _ => s
    some (s.setStage t (.locking c))
  | _ => none

def spawn (s : Monitor) (role : Role) : Monitor :=
  { s with threads := s.threads ++ [⟨role, .idle⟩] }

/-- A wake-up that nobody asked for. -/
def disturb? (s : Monitor) (t : Nat) : Option Monitor :=
  match s.stage? t with
  | some (.asleep r) => some (s.setStage t (.waking r))
  | _ => none

inductive Action where
  | advance (t : Nat)
  | call (t : Nat) (c : Call)
  | spawn (role : Role)
  | disturb (t : Nat)
  deriving DecidableEq, Repr

/-- The session after an action; `none` if the action cannot happen. -/
def act? (s : Monitor) : Action → Option Monitor
  | .advance t => s.advance? t
  | .call t c => s.call? t c
  | .spawn role => some (s.spawn role)
  | .disturb t => s.disturb? t

end Monitor

end Chip8
