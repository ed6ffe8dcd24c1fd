import Chip8.Proofs.Reachable
import Chip8.Proofs.Refinement

/-!
How far the parts of a machine can get, whatever its program and its host do. The bounds rest on
each other: a call pushes no more than the program counter allows, and a return goes no further
than a call pushed.
-/

namespace Chip8

open Table (Row Fails)

namespace Table

variable {s s' : State} {i : Instruction}

/-- A call pushes the address after it, and everything else was pushed before. -/
theorem Row.returns (h : Row s i s') (hpc : s.pc ≤ 4094)
    (hstack : ∀ a ∈ s.stack, 2 ≤ a ∧ a ≤ 0x1000) : ∀ a ∈ s'.stack, 2 ≤ a ∧ a ≤ 0x1000 := by
  rcases h.stack_cases with hs | ⟨-, hs⟩ | ⟨nnn, -, hs⟩
  · rwa [hs]
  · rw [hs] at hstack
    exact (List.forall_mem_cons.mp hstack).2
  · rw [hs]
    exact List.forall_mem_cons.mpr ⟨⟨by omega, by omega⟩, hstack⟩

theorem Row.length_le (h : Row s i s') (hfree : ∀ cause, ¬Fails s i cause)
    (hlen : s.stack.length ≤ s.depth) : s'.stack.length ≤ s.depth := by
  rcases h.stack_cases with hs | ⟨-, hs⟩ | ⟨nnn, rfl, hs⟩
  · rwa [hs]
  · rw [hs] at hlen
    exact Nat.le_of_lt hlen
  · rw [hs]
    exact Nat.lt_of_not_le fun hfull => hfree _ (.call hfull)

end Table

/-- The faults that a machine with these settings can latch. -/
inductive Fault.Possible (config : Config) : Fault → Prop
  | memory {a : Nat} (h : 4096 ≤ a) : Possible config (.memoryOutOfBounds a)
  | underflow : Possible config .stackUnderflow
  | overflow : Possible config (.stackOverflow config.stackDepth)
  | unknown {word : UInt16} (hp : config.unknownOpcodes = .fault)
      (hd : Instruction.decode word = .unknown word) : Possible config (.unknownOpcode word)

namespace Machine

structure Bounded (config : Config) (m : Machine) : Prop where
  config_eq : m.config = config
  depth_eq : m.stack.depth = config.stackDepth
  pc_le : m.pc.toNat ≤ 0x10FE
  returns : ∀ a ∈ m.stack.entries, 2 ≤ a.toNat ∧ a.toNat ≤ 0x1000
  length_le : m.stack.entries.length ≤ config.stackDepth
  /-- A machine that waits for a key has not failed. -/
  fault_or_wait : m.fault = none ∨ m.awaiting = none
  possible : ∀ cause, m.fault = some cause → cause.Possible config

theorem programStart_le : programStart.toNat ≤ 0x10FE := by decide

variable {config : Config} {m after : Machine} {o : Outcome} {cause : Fault}

theorem bounded_of_build {seed : UInt64} (h : Machine.build config seed = .ok m) :
    Bounded config m := by
  obtain ⟨-, -, rfl⟩ := of_build h
  exact ⟨rfl, rfl, programStart_le, List.forall_mem_nil _, Nat.zero_le _, .inl rfl,
    fun _ hcause => by cases hcause⟩

theorem Bounded.of_next (h : Bounded config m) (hf : m.fault = none)
    (hn : Execution.next m = .ok o after) : Bounded config after := by
  obtain ⟨word, hword, hfree, -, hrow⟩ := row_of_next hn
  have hpc := pc_le_of_nextWord hword
  have hreturns : ∀ a ∈ m.state.stack, 2 ≤ a ∧ a ≤ 0x1000 := List.forall_mem_map.mpr h.returns
  have hlen : m.state.stack.length ≤ m.state.depth := by
    rw [state, List.length_map]
    exact Nat.le_trans h.length_le (Nat.le_of_eq h.depth_eq.symm)
  have hbyte : m.state.v 0 ≤ 255 := Nat.le_of_lt_succ (m.v.get 0).toNat_lt
  have hlen' := hrow.length_le hfree hlen
  rw [state, List.length_map, state, h.depth_eq] at hlen'
  obtain ⟨hconfig, -, -, -, -, hdepth, -, hfault⟩ := hrow.frame
  have hnone : after.fault = none := hfault.trans hf
  exact
    { config_eq := hconfig.trans h.config_eq
      depth_eq := hdepth.trans h.depth_eq
      pc_le := hrow.pc_le hpc hbyte fun a ha => (hreturns a ha).2
      returns := List.forall_mem_map.mp (hrow.returns hpc hreturns)
      length_le := hlen'
      fault_or_wait := .inl hnone
      possible := fun cause hcause => by
        rw [hnone] at hcause
        cases hcause }

theorem Bounded.possible_of_next (h : Bounded config m)
    (hn : Execution.next m = .error cause after) : cause.Possible config := by
  rcases cause_of_next hn with hword | ⟨word, -, hfails⟩
  · obtain ⟨-, rfl⟩ := Memory.readWord_eq_error.mp hword
    exact .memory (Nat.le_max_right ..)
  · generalize hi : Instruction.decode word = i at hfails
    cases hfails with
    | ret => exact .underflow
    | call =>
      rw [show m.state.depth = config.stackDepth from h.depth_eq]
      exact .overflow
    | addIndex hsum => exact .memory (Nat.le_trans (by decide) hsum)
    | access => exact .memory (Nat.le_max_right ..)
    | unknown hp =>
      obtain rfl := Instruction.eq_of_decode_unknown hi
      exact .unknown (h.config_eq ▸ hp) hi

theorem Bounded.step (h : Bounded config m) : Bounded config m.step.machine := by
  rcases step_cases m with ⟨-, -, hs⟩ | ⟨r, -, -, hs⟩ | ⟨o, after, hf, -, hn, hs⟩ |
      ⟨cause, after, -, hw, hn, hs⟩ <;> rw [hs]
  · exact h
  · exact h
  · exact h.of_next hf hn
  · exact
      { h with
        fault_or_wait := .inr hw
        possible := fun cause' hc => by
          cases hc
          exact h.possible_of_next hn }

theorem Bounded.act (h : Bounded config m) (a : HostAction) : Bounded config (m.act a) := by
  cases a with
  | step => exact h.step
  | setKey k pressed =>
    rcases m.setKey_cases k pressed with hs | ⟨r, -, hs⟩ <;> rw [Machine.act, hs]
    · exact { h with }
    · exact { h with fault_or_wait := .inr rfl }
  | tick => exact { h with }
  | loadRom rom =>
    rcases m.act_loadRom rom with hs | ⟨-, hs⟩ <;> rw [hs]
    · exact h
    · exact { h with pc_le := programStart_le }
  | loadFont font => exact { h with }
  | reset =>
    exact
      { h with
        pc_le := programStart_le
        returns := List.forall_mem_nil _
        length_le := Nat.zero_le _
        fault_or_wait := .inl rfl
        possible := fun _ hcause => by cases hcause }
  | assign target value =>
    rcases m.act_assign target value with hs | hs
    · rw [hs]
      exact h
    · obtain ⟨hpc, he⟩ := Debugger.of_setTarget hs
      have hle : (m.act (.assign target value)).pc.toNat ≤ 0x10FE := by
        rcases hpc with hpc | hpc
        · rw [hpc]
          exact h.pc_le
        · exact Nat.le_trans (Nat.le_of_lt hpc) (by decide)
      rw [he]
      exact { h with pc_le := hle }

theorem Reachable.bounded (h : m.Reachable config) : Bounded config m := by
  induction h with
  | build h => exact bounded_of_build h
  | act _ a ih => exact ih.act a

end Machine

/-- In every session the machine stays within its bounds, and so a fetch or a skip never takes the
program counter past its last value. -/
theorem Debugger.reachable_bounded {config : Config} {d : Debugger} (h : d.Reachable config) :
    d.machine.Bounded config ∧ d.machine.pastFetch.pc.toNat = d.machine.pc.toNat + 2 ∧
      ∀ condition, (d.machine.pastFetch.skipIf condition).pc.toNat =
        d.machine.pc.toNat + if condition then 4 else 2 := by
  have hb := (machine_reachable h).bounded
  have hfetch : d.machine.pc.toNat + 2 < 65536 := by
    have := hb.pc_le
    omega
  have hskip : d.machine.pc.toNat + 4 < 65536 := by
    have := hb.pc_le
    omega
  refine ⟨hb, congrArg Table.State.pc (Machine.state_pastFetch hfetch), fun condition => ?_⟩
  refine (congrArg Table.State.pc (Machine.state_skipIf hskip condition)).trans ?_
  cases condition <;> rfl

/-- Sent to the last address, a machine faults on the second byte of the word there. -/
theorem Debugger.reachable_bounded_last : ∃ d : Debugger, d.Reachable {} ∧
    d.machine.Bounded {} ∧ d.machine.pc = 0xFFF ∧
      d.machine.fault = some (.memoryOutOfBounds 0x1000) := by
  have hbuild : Machine.build {} 0 = .ok (Machine.powerOn {} 0) := rfl
  have h := ((Reachable.start hbuild).perform (.set .pc 0xFFF)).perform (.step 1)
  exact ⟨_, h, (reachable_bounded h).1, by decide +kernel, by decide +kernel⟩

end Chip8
