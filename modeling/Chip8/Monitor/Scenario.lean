import Chip8.Monitor

/-!
Schedules whose end does not depend on chance: one thread runs for as long as it can, and the
client acts only when that thread sleeps or has ended.
-/

namespace Chip8.Monitor

/-- Lets thread `t` advance until `stops` holds or it can go no further. -/
def drive (fuel : Nat) (s : Monitor) (t : Nat) (stops : Monitor → Bool) : Monitor :=
  match fuel with
  | 0 => s
  | fuel + 1 =>
    if stops s then s
    else match s.advance? t with
      | some s => drive fuel s t stops
      | none => s

/-- The first thread, which is the client of the host. -/
def host : Nat := 0

def settle (fuel : Nat) (s : Monitor) (t : Nat) : Monitor := s.drive fuel t fun _ => false

/-- The host makes a call, and nobody else acts before it returns. -/
def request (fuel : Nat) (s : Monitor) (c : Call) : Monitor :=
  match s.call? host c with
  | some s => s.settle fuel host
  | none => s

def requests (fuel : Nat) (s : Monitor) (calls : List Call) : Monitor :=
  calls.foldl (request fuel) s

def answerOf (s : Monitor) (t : Nat) : Option Answer :=
  match s.stage? t with
  | some (.returned a) => some a
  | _ => none

def isAsleep (s : Monitor) (t : Nat) : Bool :=
  match s.stage? t with
  | some (.asleep _) => true
  | _ => false

/-- Another client executes one instruction. If it falls asleep, the keys are set in order, and a
wait that they leave pending is ended by shutting down. -/
def executeBlocked (fuel : Nat) (s : Monitor) (keys : List (Nibble × Bool)) :
    Option Answer × Monitor :=
  let t := s.threads.length
  let s := s.spawn .client
  match s.call? t .executeBlocking with
  | none => (none, s)
  | some s =>
    let s := s.settle fuel t
    let s :=
      if s.isAsleep t then
        let s := s.requests fuel (keys.map fun (k, pressed) => .setKey k pressed)
        if s.machine.awaiting.isSome then s.request fuel .shutdown else s
      else s
    let s := s.settle fuel t
    (s.answerOf t, s)

structure Stopped where
  result : Except StepError Unit
  /-- How many keys were used. -/
  pressed : Nat
  session : Monitor

/-- Runs a driver thread; at each key wait the next key is released and pressed. -/
def feed (fuel : Nat) (t : Nat) : List Nibble → Nat → Monitor → Nat × Monitor
  | [], pressed, s => (pressed, s.settle fuel t)
  | k :: keys, pressed, s =>
    let s := s.settle fuel t
    if s.isAsleep t then
      feed fuel t keys (pressed + 1) (s.requests fuel [.setKey k false, .setKey k true])
    else (pressed, s)

/-- The host stops thread `t`, which meanwhile goes on to its end. -/
def stopThread (fuel : Nat) (s : Monitor) (t : Nat) : Except StepError Unit × Monitor :=
  let s := ((s.request fuel (.stop t)).settle fuel t).settle fuel host
  match s.answerOf host with
  | some (.joined result) => (result, s)
  | _ => (.ok (), s)

/-- Starts the thread that executes, feeds it keys until it faults or waits in vain, and stops
it. -/
def runCpu (fuel : Nat) (s : Monitor) (keys : List Nibble) : Stopped :=
  let t := s.threads.length
  let (pressed, s) := feed fuel t keys 0 (s.spawn .cpu)
  let (result, s) := s.stopThread fuel t
  ⟨result, pressed, s⟩

/-- Starts the thread that ticks, and stops it when both timers have run down. -/
def drain (fuel : Nat) (s : Monitor) : Monitor :=
  let t := s.threads.length
  let s := (s.spawn .timer).drive fuel t fun s =>
    s.machine.delayTimer = 0 ∧ s.machine.soundTimer = 0
  (s.stopThread fuel t).2

end Chip8.Monitor
