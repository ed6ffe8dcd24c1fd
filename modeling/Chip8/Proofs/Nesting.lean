import Mathlib.Data.List.Induction
import Chip8.Proofs.History

/-!
Calls and returns nest. What a call finds on the stack stays there, with the address after the call
on top of it, under whatever else is called. The return that takes this address off the stack goes
to it.
-/

namespace Chip8.Machine

/-- An action of play on a machine that is deeper in calls than `caller`. -/
def DeeperThan (caller m : Machine) (a : HostAction) : Prop :=
  a.InPlay ∧ caller.stack.entries.length < m.stack.entries.length

variable {m caller : Machine} {action : HostAction} {history : List HostAction}
  {a : Nat} {rest : List Nat}

theorem length_state_stack (m : Machine) : m.state.stack.length = m.stack.entries.length :=
  List.length_map ..

/-- A step leaves what is below the innermost address alone, and that address too unless it
returns to it. -/
theorem step_frame (h : a :: rest <:+ m.state.stack) :
    a :: rest <:+ m.step.machine.state.stack ∨
      m.Executes .ret ∧ m.step.machine.state.stack = rest ∧ m.step.machine.state.pc = a := by
  rcases m.step_row with ⟨hs, -⟩ | ⟨i, hi, -, hrow⟩
  · rw [hs]
    exact .inl h
  rcases hrow.stack_cases with hsame | ⟨rfl, hpop⟩ | ⟨nnn, -, hpush⟩
  · rw [hsame]
    exact .inl h
  · rw [hpop] at h
    rcases List.suffix_cons_iff.mp h with htop | hbelow
    · obtain ⟨rfl, rfl⟩ := List.cons.inj htop
      exact .inr ⟨hi, rfl, rfl⟩
    · exact .inl hbelow
  · rw [hpush]
    exact .inl (h.trans (List.suffix_cons ..))

/-- Ticks and keys do not touch the stack. -/
theorem stack_act (h : action.InPlay) (hstep : action ≠ .step) :
    (m.act action).stack = m.stack := by
  cases action with
  | step => exact absurd rfl hstep
  | tick => rfl
  | setKey k pressed =>
    rcases m.setKey_cases k pressed with hs | ⟨r, -, hs⟩ <;> rw [act, hs]
  | loadRom | loadFont | reset | assign => cases h

theorem depth_act (h : action.InPlay) : (m.act action).stack.depth = m.stack.depth := by
  by_cases hstep : action = .step
  · rw [hstep, act]
    rcases m.step_row with ⟨hs, -⟩ | ⟨i, -, -, hrow⟩
    · rw [hs]
    · obtain ⟨-, -, -, -, -, hdepth, -⟩ := hrow.frame
      exact hdepth
  · rw [stack_act h hstep]

/-- The frame of a call stays in place while the machine is deeper than the caller, and then it is
the frame that is returned from. -/
theorem Along.frame (h : Along (DeeperThan caller) m history) (hm : a :: rest <:+ m.state.stack)
    (hrest : rest.length = caller.stack.entries.length) :
    a :: rest <:+ (m.acts history).state.stack ∨
      ∃ before, history = before ++ [.step] ∧ (m.acts before).Executes .ret ∧
        (m.acts history).state.stack = rest ∧ (m.acts history).state.pc = a := by
  induction history using List.reverseRecOn with
  | nil => exact .inl hm
  | append_singleton before action ih =>
    obtain ⟨hbefore, hplay, hdeeper⟩ := along_concat.mp h
    rw [acts_concat]
    rcases ih hbefore with hframe | ⟨-, -, -, hstack, -⟩
    · by_cases hstep : action = .step
      · subst hstep
        rcases step_frame hframe with hframe' | ⟨hret, hstack, hpc⟩
        · exact .inl hframe'
        · exact .inr ⟨before, rfl, hret, hstack, hpc⟩
      · rw [state, stack_act hplay hstep]
        exact .inl hframe
    -- Once the frame is gone the machine is no deeper than the caller, and nothing more is played.
    · rw [← length_state_stack, ← length_state_stack, hstack, length_state_stack, hrest] at hdeeper
      exact absurd hdeeper (Nat.lt_irrefl _)

/-- While more is on the stack than a call found there, what it found is at the bottom and the
address after the call comes next. The step that first leaves no more is a return. It leaves
exactly what the call found and goes to the address after the call. -/
theorem call_returns_to_caller {nnn : Address} {o : Outcome} (h : m.Executes (.call nnn))
    (ho : m.step.result = .ok o) (hh : Along (DeeperThan m) m.step.machine history) :
    let now := m.step.machine.acts history
    (m.stack.entries.length < now.stack.entries.length →
      (m.pc.toNat + 2) :: m.state.stack <:+ now.state.stack) ∧
    (now.stack.entries.length ≤ m.stack.entries.length →
      ∃ before, history = before ++ [.step] ∧ (m.step.machine.acts before).Executes .ret ∧
        now.stack = m.stack ∧ now.pc.toNat = m.pc.toNat + 2) := by
  intro now
  have hcalled : m.step.machine.state.stack = (m.pc.toNat + 2) :: m.state.stack := by
    have hrow := h.row ho
    generalize m.step.machine.state = called at hrow ⊢
    cases hrow
    rfl
  have hpushed : (m.pc.toNat + 2) :: m.state.stack <:+ m.step.machine.state.stack :=
    ⟨[], hcalled.symm⟩
  rcases hh.frame hpushed (length_state_stack m) with hbelow | ⟨before, hhistory, hret, hstack, hpc⟩
  · refine ⟨fun _ => hbelow, fun hle => ?_⟩
    have hlength := hbelow.length_le
    rw [List.length_cons, length_state_stack, length_state_stack] at hlength
    exact absurd hlength (Nat.not_le.mpr (Nat.lt_succ_of_le hle))
  · have hlength : now.stack.entries.length = m.stack.entries.length := by
      rw [← length_state_stack, ← length_state_stack, hstack]
    have hcalledDepth : (m.act .step).stack.depth = m.stack.depth := depth_act trivial
    have hdepth : now.stack.depth = m.stack.depth :=
      hh.preserves (P := fun n => n.stack.depth = m.stack.depth) hcalledDepth
        fun n action hn ha => (depth_act ha.1).trans hn
    refine ⟨fun hlt => absurd hlength (Nat.ne_of_gt hlt), fun _ => ?_⟩
    exact ⟨before, hhistory, hret, stack_eq_of_state hdepth hstack, hpc⟩

/-- A machine about to call a subroutine that calls another one. -/
def callingTwice : Machine := { powerOn {} 0 with
  memory := ⟨overlay Memory.zero.bytes 0x200
    [0x22, 0x04, 0x00, 0xE0, 0x22, 0x08, 0x00, 0xEE, 0x00, 0xEE]⟩ }

/-- Down to the inner subroutine, back to the outer one, and back from there. -/
def downAndBack : List HostAction := [.step, .tick, .step, .setKey 7 true, .step]

theorem call_returns_to_caller_downAndBack :
    let called := callingTwice.step.machine
    let now := called.acts downAndBack
    callingTwice.Executes (.call 0x204) ∧ callingTwice.step.result = .ok .advanced ∧
      Along (DeeperThan callingTwice) called downAndBack ∧
      [0x202] <:+ (called.acts [.step]).state.stack ∧
      (called.acts (downAndBack.take 4)).Executes .ret ∧
      now.stack = callingTwice.stack ∧ now.pc.toNat = 0x202 := by
  have hcall : callingTwice.Executes (.call 0x204) :=
    ⟨rfl, rfl, 0x2204, by decide +kernel, by decide +kernel⟩
  have hresult : callingTwice.step.result = .ok .advanced := by decide +kernel
  have hdeeper : Along (DeeperThan callingTwice) callingTwice.step.machine downAndBack := by
    simp only [downAndBack, Along, DeeperThan, HostAction.InPlay, true_and, and_true]
    decide +kernel
  have hinner : Along (DeeperThan callingTwice) callingTwice.step.machine [.step] :=
    ⟨hdeeper.1, trivial⟩
  obtain ⟨hbelow, -⟩ := call_returns_to_caller hcall hresult hinner
  obtain ⟨-, hback⟩ := call_returns_to_caller hcall hresult hdeeper
  obtain ⟨before, hbefore, hret, hstack, hpc⟩ := hback (by decide +kernel)
  have hsplit : downAndBack.take 4 ++ [.step] = before ++ [.step] := hbefore
  obtain rfl := List.append_cancel_right hsplit
  exact ⟨hcall, hresult, hdeeper, hbelow (by decide +kernel), hret, hstack, hpc⟩

end Chip8.Machine
