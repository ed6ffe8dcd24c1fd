import Mathlib.Data.List.Induction
import Chip8.Proofs.Listings
import Chip8.Proofs.Stepping
import Chip8.Proofs.Stopping

/-!
What commands do to a debugger. Each of them changes what it is about and leaves the rest: to look
changes nothing, an assignment changes one field of the machine, and what is refused changes nothing
at all. A breakpoint is there if the last word about its address set it, whatever else was asked for
in between.
-/

namespace Chip8

/-- The commands that are not for the machine to carry out. -/
def Command.SparesMachine : Command → Prop
  | .run | .pause | .quit | .dump .. | .listing .. | .breakpoint _ => True
  | .step _ | .set .. | .reset => False

/-- Whether the debugger runs after a command. -/
def Command.runs (running : Bool) : Command → Bool
  | .run => true
  | .pause | .reset => false
  | _ => running

def BreakpointAction.mark (b : Breakpoints) : BreakpointAction → Breakpoints
  | .set a => b.insert a
  | .clear a => b.erase a
  | .list => b
  | .clearAll => .none

/-- The breakpoints after a command. -/
def Command.mark (b : Breakpoints) : Command → Breakpoints
  | .breakpoint action => action.mark b
  | _ => b

namespace SetTarget

def valueIn (m : Machine) : SetTarget → Nat
  | .register x => (m.v.get x).toNat
  | .index => m.index.toNat
  | .pc => m.pc.toNat
  | .delayTimer => m.delayTimer.toNat
  | .soundTimer => m.soundTimer.toNat

/-- The values that can be assigned to a target. -/
def Takes (value : UInt16) : SetTarget → Prop
  | .register _ | .delayTimer | .soundTimer => value.toNat ≤ 255
  | .pc => value.toNat < 4096
  | .index => True

/-- The target has got the value. The other targets, and what is no target, are as before. -/
structure Assigned (target : SetTarget) (value : UInt16) (m after : Machine) : Prop where
  value_eq : target.valueIn after = value.toNat
  other : ∀ t, t ≠ target → t.valueIn after = t.valueIn m
  frame : after = { m with
    pc := after.pc, index := after.index, v := after.v
    delayTimer := after.delayTimer, soundTimer := after.soundTimer }

variable {target : SetTarget} {value : UInt16}

theorem toNat_toUInt8 (h : value.toNat ≤ 255) : value.toUInt8.toNat = value.toNat := by
  rw [UInt16.toNat_toUInt8, Nat.mod_eq_of_lt (Nat.lt_succ_of_le h)]

theorem setTarget_of_takes (h : target.Takes value) (m : Machine) :
    ∃ after, Debugger.setTarget m target value = .ok after ∧ target.Assigned value m after := by
  cases target with
  | register x =>
    refine ⟨{ m with v := setAt m.v x value.toUInt8 }, ?_, ?_, fun t ht => ?_, rfl⟩
    · rw [Debugger.setTarget, if_pos (Nat.lt_succ_of_le h)]
      rfl
    · rw [valueIn, get_setAt, if_pos rfl]
      exact toNat_toUInt8 h
    · cases t with
      | register y =>
        have hy : x ≠ y := fun h => ht (congrArg register h.symm)
        rw [valueIn, get_setAt, if_neg hy, valueIn]
      | index | pc | delayTimer | soundTimer => rfl
  | index =>
    refine ⟨{ m with index := value }, rfl, rfl, fun t ht => ?_, rfl⟩
    cases t <;> first | rfl | exact absurd rfl ht
  | pc =>
    refine ⟨{ m with pc := value }, if_pos h, rfl, fun t ht => ?_, rfl⟩
    cases t <;> first | rfl | exact absurd rfl ht
  | delayTimer | soundTimer =>
    rw [Debugger.setTarget, if_pos (Nat.lt_succ_of_le h)]
    refine ⟨_, rfl, ?_, fun t ht => ?_, rfl⟩
    · exact toNat_toUInt8 h
    · cases t <;> first | rfl | exact absurd rfl ht

theorem setTarget_of_not_takes (h : ¬target.Takes value) (m : Machine) :
    Debugger.setTarget m target value = .error .valueOutOfRange := by
  cases target with
  | register | delayTimer | soundTimer =>
    rw [Debugger.setTarget, if_neg fun hlt => h (Nat.le_of_lt_succ hlt)]
    rfl
  | index => exact absurd trivial h
  | pc => exact if_neg h

end SetTarget

namespace Debugger

/-- The bytes from `a` on: `len` of them, or as many as there are up to the end of memory. -/
structure Dumps (m : Memory) (a len : Nat) (data : List UInt8) : Prop where
  length_eq : data.length = min (a + len) 4096 - a
  byte : ∀ i, (h : i < data.length) → m.read (a + i) = .ok data[i]

/-- Nothing takes a breakpoint at `a` away. -/
def Keeps (a : UInt16) (commands : List Command) : Prop :=
  Command.breakpoint (.clear a) ∉ commands ∧ Command.breakpoint .clearAll ∉ commands

/-- The last word about a breakpoint at `a` is that it is set. -/
def SetLast (a : UInt16) (commands : List Command) : Prop :=
  ∃ before after, commands = before ++ .breakpoint (.set a) :: after ∧ Keeps a after

/-- Commands are given one after another. In between time passes and keys move. -/
inductive Dialogue (d : Debugger) : List Command → Debugger → Prop
  | start : Dialogue d [] d
  | command {commands : List Command} {now : Debugger} (s : Dialogue d commands now)
      (c : Command) : Dialogue d (commands ++ [c]) (now.perform c).2
  | poll {commands : List Command} {now after : Debugger} (s : Dialogue d commands now)
      {fuel : Nat} {dt : Float32} {result : Except StepError UpdateOutcome}
      (hp : now.poll fuel dt = some (result, after)) : Dialogue d commands after
  | setKey {commands : List Command} {now : Debugger} (s : Dialogue d commands now) (k : Nibble)
      (pressed : Bool) :
      Dialogue d commands { now with runner := now.runner.setKey k pressed }

variable {d now : Debugger} {c : Command} {commands : List Command} {a : UInt16}

theorem perform_set (d : Debugger) (target : SetTarget) (value : UInt16) :
    (target.Takes value ∧ ∃ after,
      d.perform (.set target value) = (.ok .done, d.withMachine after) ∧
        target.Assigned value d.machine after) ∨
    (¬target.Takes value ∧ d.perform (.set target value) = (.error .valueOutOfRange, d)) := by
  by_cases h : target.Takes value
  · obtain ⟨after, hset, hassigned⟩ := SetTarget.setTarget_of_takes h d.machine
    exact .inl ⟨h, after, by rw [perform, hset], hassigned⟩
  · exact .inr ⟨h, by rw [perform, SetTarget.setTarget_of_not_takes h]⟩

theorem perform_dump (d : Debugger) (start len : UInt16) :
    (start.toNat < 4096 ∧ ∃ data, d.perform (.dump start len) = (.ok (.dump data start), d) ∧
      Dumps d.machine.memory start.toNat len.toNat data) ∨
    (4096 ≤ start.toNat ∧ d.perform (.dump start len) = (.error .valueOutOfRange, d)) := by
  by_cases h : start.toNat < 4096
  · have hroom : start.toNat + min len.toNat (4096 - start.toNat) ≤ 4096 := by omega
    obtain ⟨data, hslice⟩ : ∃ data, d.machine.memory.slice start.toNat
        (min len.toNat (Memory.size - start.toNat)) = .ok data :=
      ⟨_, d.machine.memory.slice_eq_ok hroom⟩
    have hlength := Memory.length_of_slice hslice
    have hperform : d.perform (.dump start len) = (.ok (.dump data start), d) := by
      rw [perform, if_pos (show start.toNat < Memory.size from h), hslice]
    refine .inl ⟨h, data, hperform, ?_, fun i hi => ?_⟩
    · rw [hlength, Memory.size]
      omega
    · rw [Memory.read_of_slice hslice (hlength ▸ hi), List.getD_eq_getElem _ _ hi]
  · exact .inr ⟨Nat.not_lt.mp h, by rw [perform, if_neg (show ¬start.toNat < Memory.size from h)]⟩

/-- What a command does besides what it is given for. -/
structure Performs (d : Debugger) (c : Command) (answer : Except CommandError Reply)
    (after : Debugger) : Prop where
  running_eq : after.running = c.runs d.running
  breakpoints_eq : after.breakpoints = c.mark d.breakpoints
  backlogs : after.runner = { d.runner with machine := after.machine }
  spared (h : c.SparesMachine) : after.machine = d.machine
  refused (h : answer = .error .valueOutOfRange) : after = d

theorem performs (d : Debugger) (c : Command) : d.Performs c (d.perform c).1 (d.perform c).2 := by
  cases c with
  | run | pause | quit => exact ⟨rfl, rfl, rfl, fun _ => rfl, nofun⟩
  | reset => exact ⟨rfl, rfl, rfl, nofun, nofun⟩
  | breakpoint action => cases action <;> exact ⟨rfl, rfl, rfl, fun _ => rfl, nofun⟩
  | dump start len =>
    rcases d.perform_dump start len with ⟨-, data, hp, -⟩ | ⟨-, hp⟩ <;> rw [hp] <;>
      exact ⟨rfl, rfl, rfl, fun _ => rfl, fun _ => rfl⟩
  | listing start len =>
    rw [perform_listing]
    split <;> exact ⟨rfl, rfl, rfl, fun _ => rfl, fun _ => rfl⟩
  | set target value =>
    rcases d.perform_set target value with ⟨-, after, hp, -⟩ | ⟨-, hp⟩ <;> rw [hp]
    · exact ⟨rfl, rfl, rfl, nofun, nofun⟩
    · exact ⟨rfl, rfl, rfl, nofun, fun _ => rfl⟩
  | step count =>
    rw [perform_step]
    rcases stepMachine count.toNat d.machine with ⟨e | ⟨⟩, after⟩ <;>
      exact ⟨rfl, rfl, rfl, nofun, nofun⟩

theorem poll_breakpoints {fuel : Nat} {dt : Float32} {result : Except StepError UpdateOutcome}
    (h : d.poll fuel dt = some (result, now)) :
    now.breakpoints = d.breakpoints ∧ (now.running = true → d.running = true) := by
  rcases poll_cases h with ⟨hrunning, -, hbreakpoints, -⟩ | ⟨-, -, rfl⟩
  · exact ⟨hbreakpoints, fun _ => hrunning⟩
  · exact ⟨rfl, id⟩

theorem contains_mark (b : Breakpoints) : (c.mark b).contains a = true ↔
    c = .breakpoint (.set a) ∨
      b.contains a = true ∧ c ≠ .breakpoint (.clear a) ∧ c ≠ .breakpoint .clearAll := by
  cases c with
  | breakpoint action =>
    rw [Command.mark]
    cases action with
    | set x => simp [BreakpointAction.mark, @eq_comm _ a x]
    | clear x => simp [BreakpointAction.mark, @eq_comm _ a x, and_comm]
    | list => simp [BreakpointAction.mark]
    | clearAll => simp [BreakpointAction.mark, Breakpoints.contains, Breakpoints.none]
  | _ => simp [Command.mark]

theorem keeps_concat : Keeps a (commands ++ [c]) ↔
    Keeps a commands ∧ c ≠ .breakpoint (.clear a) ∧ c ≠ .breakpoint .clearAll := by
  simp only [Keeps, List.mem_append, List.mem_singleton, not_or, ne_eq, eq_comm (a := c)]
  exact and_and_and_comm

theorem setLast_concat : SetLast a (commands ++ [c]) ↔
    c = .breakpoint (.set a) ∨
      SetLast a commands ∧ c ≠ .breakpoint (.clear a) ∧ c ≠ .breakpoint .clearAll := by
  constructor
  · rintro ⟨before, after, heq, hkeeps⟩
    induction after using List.reverseRecOn with
    | nil => exact .inl (List.cons.inj (List.append_inj' heq rfl).2).1
    | append_singleton after last =>
      rw [← List.cons_append, ← List.append_assoc] at heq
      obtain ⟨hcommands, hlast⟩ := List.append_inj' heq rfl
      obtain ⟨hkept, hkeeps⟩ := keeps_concat.mp hkeeps
      rw [(List.cons.inj hlast).1]
      exact .inr ⟨⟨before, after, hcommands, hkept⟩, hkeeps⟩
  · rintro (rfl | ⟨⟨before, after, rfl, hkept⟩, hkeeps⟩)
    · exact ⟨commands, [], rfl, nofun, nofun⟩
    · refine ⟨before, after ++ [c], ?_, keeps_concat.mpr ⟨hkept, hkeeps⟩⟩
      rw [List.append_assoc, List.cons_append]

/-- A breakpoint that is there at the start counts as set before all commands. -/
theorem Dialogue.contains_iff (s : Dialogue d commands now) (a : UInt16) :
    now.breakpoints.contains a = true ↔
      SetLast a commands ∨ d.breakpoints.contains a = true ∧ Keeps a commands := by
  induction s with
  | start => simp [SetLast, Keeps]
  | @command commands now _ c ih =>
    rw [(now.performs c).breakpoints_eq, contains_mark, ih, setLast_concat, keeps_concat, or_assoc]
    rw [or_and_right, and_assoc]
  | poll _ hp ih => rw [(poll_breakpoints hp).1, ih]
  | setKey _ _ _ ih => exact ih

/-- Whatever the debugger, no command moves the backlogs, and only steps, assignments and a reset
move the machine; what is refused as out of range changes nothing. An assignment goes through just
with a value that its target takes, and then changes that one field. A dump is given just from an
address in memory, and then has the bytes from there on, up to the end of memory. A debugger comes
to run by the command to run, and of the commands those to pause and to reset stop it. The
breakpoints change with the commands about them, and with nothing else: after any commands, polls
and keys they are those that were set last, and are listed in ascending order. -/
theorem commands_touch_what_they_name (d : Debugger) :
    (∀ c : Command,
      let after := (d.perform c).2
      after.runner = { d.runner with machine := after.machine } ∧
      (c.SparesMachine → after.runner = d.runner)) ∧
    (∀ c, (d.perform c).1 = .error .valueOutOfRange → (d.perform c).2 = d) ∧
    (∀ (target : SetTarget) (value : UInt16),
      let answer := d.perform (.set target value)
      ((∃ reply, answer.1 = .ok reply) ↔ target.Takes value) ∧
      (target.Takes value → ∃ after, answer = (.ok .done, d.withMachine after) ∧
        target.Assigned value d.machine after)) ∧
    (∀ start len,
      let answer := d.perform (.dump start len)
      ((∃ reply, answer.1 = .ok reply) ↔ start.toNat < 4096) ∧
      (start.toNat < 4096 → ∃ data, answer = (.ok (.dump data start), d) ∧
        Dumps d.machine.memory start.toNat len.toNat data)) ∧
    (∀ c : Command, (d.perform c).2.running = c.runs d.running) ∧
    (∀ c, (∀ action, c ≠ .breakpoint action) → (d.perform c).2.breakpoints = d.breakpoints) ∧
    (∀ fuel dt result after, d.poll fuel dt = some (result, after) →
      after.breakpoints = d.breakpoints ∧ (after.running = true → d.running = true)) ∧
    ∀ commands now, Dialogue d commands now → ∃ addresses,
      now.perform (.breakpoint .list) = (.ok (.breakpoints addresses), now) ∧
        addresses.Pairwise (· < ·) ∧
        ∀ a, a ∈ addresses ↔
          SetLast a commands ∨ a ∈ d.breakpoints.addresses ∧ Keeps a commands := by
  refine ⟨?machine, fun c h => (d.performs c).refused h, ?assignment, ?dump,
    fun c => (d.performs c).running_eq, ?breakpoints, fun _ _ _ _ h => poll_breakpoints h, ?history⟩
  case machine =>
    intro c after
    have hbacklogs : after.runner = _ := (d.performs c).backlogs
    refine ⟨hbacklogs, fun h => ?_⟩
    have hmachine : after.machine = d.machine := (d.performs c).spared h
    rw [hbacklogs, hmachine]
    rfl
  case assignment =>
    intro target value answer
    rcases d.perform_set target value with ⟨htakes, after, hp, hassigned⟩ | ⟨hnot, hp⟩
    · exact ⟨iff_of_true ⟨_, congrArg Prod.fst hp⟩ htakes, fun _ => ⟨after, hp, hassigned⟩⟩
    · refine ⟨iff_of_false ?_ hnot, fun h => absurd h hnot⟩
      rintro ⟨reply, hreply⟩
      cases (congrArg Prod.fst hp).symm.trans hreply
  case dump =>
    intro start len answer
    rcases d.perform_dump start len with ⟨hin, data, hp, hdumps⟩ | ⟨hout, hp⟩
    · exact ⟨iff_of_true ⟨_, congrArg Prod.fst hp⟩ hin, fun _ => ⟨data, hp, hdumps⟩⟩
    · refine ⟨iff_of_false ?_ (Nat.not_lt.mpr hout), fun h => absurd h (Nat.not_lt.mpr hout)⟩
      rintro ⟨reply, hreply⟩
      cases (congrArg Prod.fst hp).symm.trans hreply
  case breakpoints =>
    intro c h
    rw [(d.performs c).breakpoints_eq]
    cases c with
    | breakpoint action => exact absurd rfl (h action)
    | _ => rfl
  case history =>
    intro commands now s
    refine ⟨now.breakpoints.addresses, rfl, now.breakpoints.ascending, fun a => ?_⟩
    rw [← List.contains_iff_mem, ← List.contains_iff_mem]
    exact s.contains_iff a

/-- One breakpoint is cleared, the other one is met and outlasts the reset, and a third is set. Two
bytes are left of a dump that begins two bytes before the end, and past the end nothing can be
assigned to the program counter. -/
theorem commands_touch_what_they_name_settingTwo :
    ∃ now addresses, Dialogue settingTwo
        [.breakpoint (.clear 0x200), .run, .breakpoint (.set 0x206), .reset] now ∧
      now.perform (.breakpoint .list) = (.ok (.breakpoints addresses), now) ∧
      0x204 ∈ addresses ∧ 0x206 ∈ addresses ∧ 0x200 ∉ addresses ∧
      (settingTwo.perform (.set .pc 4096)).1 = .error .valueOutOfRange ∧
      (settingTwo.perform (.set .pc 4096)).2 = settingTwo ∧
      (∃ after,
        settingTwo.perform (.set (.register 4) 127) = (.ok .done, settingTwo.withMachine after) ∧
        (after.v.get 4).toNat = 127 ∧ (after.v.get 5).toNat = (settingTwo.machine.v.get 5).toNat) ∧
      ∃ data, settingTwo.perform (.dump 0xFFE 16) = (.ok (.dump data 0xFFE), settingTwo) ∧
        data.length = 2 := by
  obtain ⟨-, hrefused, hassignment, hdump, -, -, -, hhistory⟩ :=
    commands_touch_what_they_name settingTwo
  have hrun : Dialogue settingTwo [.breakpoint (.clear 0x200), .run] _ :=
    (Dialogue.start.command (.breakpoint (.clear 0x200))).command .run
  have hreturns : (((settingTwo.perform (.breakpoint (.clear 0x200))).2.perform
      .run).2.poll 20 0.05).isSome := by decide +kernel
  obtain ⟨⟨result, met⟩, hpoll⟩ := Option.isSome_iff_exists.mp hreturns
  have hdialogue := ((hrun.poll hpoll).command (.breakpoint (.set 0x206))).command .reset
  obtain ⟨addresses, hlist, -, hmem⟩ := hhistory _ _ hdialogue
  have hpc : (settingTwo.perform (.set .pc 4096)).1 = .error .valueOutOfRange := rfl
  obtain ⟨after, hset, hassigned⟩ := (hassignment (.register 4) 127).2
    (show (127 : UInt16).toNat ≤ 255 by decide)
  obtain ⟨data, hdata, hdumps⟩ := (hdump 0xFFE 16).2 (by decide)
  refine ⟨_, addresses, hdialogue, hlist, (hmem _).mpr (.inr ?_), (hmem _).mpr (.inl ?_),
    mt (hmem _).mp ?_, hpc, hrefused _ hpc, ⟨after, hset, hassigned.value_eq,
    hassigned.other (.register 5) (by decide)⟩, data, hdata, hdumps.length_eq⟩
  · exact ⟨by decide, by simp [Keeps]⟩
  · exact ⟨[.breakpoint (.clear 0x200), .run], [.reset], rfl, by simp [Keeps]⟩
  · rintro (⟨before, after, heq, -⟩ | ⟨-, hclear, -⟩)
    · have hset : Command.breakpoint (.set 0x200) ∈ before ++ .breakpoint (.set 0x200) :: after :=
        List.mem_append_right before List.mem_cons_self
      rw [← heq] at hset
      exact absurd hset (by decide)
    · exact hclear (by decide)

end Debugger

end Chip8
