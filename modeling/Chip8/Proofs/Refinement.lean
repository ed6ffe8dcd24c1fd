import Chip8.Instruction.Encoding
import Chip8.Proofs.Rows

/-!
Steps follow the instruction table: on a word of the instruction set a step comes to what the table
says, and to nothing else.
-/

namespace Chip8

open Table (Row Fails outcome)

namespace Machine

variable {m after : Machine} {i : Instruction} {o : Outcome}

theorem pc_le_of_nextWord {word : UInt16} (h : m.nextWord = .ok word) : m.pc.toNat ≤ 4094 :=
  Nat.le_of_lt_succ (Nat.lt_of_succ_lt_succ (Memory.lt_of_readWord h))

/-- What goes through is a row of the table that has nothing against it. -/
theorem row_of_next (h : Execution.next m = .ok o after) :
    ∃ word, m.nextWord = .ok word ∧ (∀ cause, ¬Fails m.state (.decode word) cause) ∧
      o = outcome (.decode word) ∧ Row m.state (.decode word) after.state := by
  rw [Execution.next_apply] at h
  split at h
  · rename_i word hword
    refine ⟨word, hword, fun cause hfails => ?_,
      Instruction.execute_row (pc_le_of_nextWord hword) h⟩
    rw [Instruction.execute_of_fails hfails] at h
    cases h
  · cases h

theorem cause_of_next {cause : Fault} (h : Execution.next m = .error cause after) :
    m.nextWord = .error cause ∨
      ∃ word, m.nextWord = .ok word ∧ Fails m.state (.decode word) cause := by
  rw [Execution.next_apply] at h
  split at h
  · rename_i word hword
    exact .inr ⟨word, hword, Instruction.fails_of_execute h⟩
  · rename_i hword
    cases h
    exact .inl hword

theorem next_of_step (hf : m.fault = none) (hw : m.awaiting = none)
    (h : m.step = ⟨.ok o, after⟩) : Execution.next m = .ok o after := by
  rcases hn : Execution.next m with ⟨o', after'⟩ | ⟨cause, after'⟩
  · rw [step_of_next hf hw hn] at h
    cases h
    rfl
  · rw [step_of_next_error hf hw hn] at h
    cases h

/-- On a word of the instruction set a step goes through unless the table has something against
it, and then it comes to what the table says and to nothing else. -/
theorem step_iff_row (hf : m.fault = none) (hw : m.awaiting = none)
    (hi : ∀ word, i ≠ .unknown word) (hpc : m.pc.toNat + 1 < 4096)
    (hword : m.state.word = i.encode.toNat) :
    m.step = ⟨.ok o, after⟩ ↔
      (∀ cause, ¬Fails m.state i cause) ∧ o = outcome i ∧ Row m.state i after.state := by
  have hnext := m.nextWord_of_state hpc hword
  have hdecode {word : UInt16} (h : m.nextWord = .ok word) : Instruction.decode word = i := by
    rw [← Except.ok.inj (hnext.symm.trans h)]
    exact Instruction.decode_encode hi
  constructor
  · intro h
    obtain ⟨word, hword', hrow⟩ := row_of_next (next_of_step hf hw h)
    rwa [hdecode hword'] at hrow
  · rintro ⟨hfree, rfl, hrow⟩
    rcases hn : Execution.next m with ⟨o', after'⟩ | ⟨cause, after'⟩
    · obtain ⟨word, hword', -, rfl, hrow'⟩ := row_of_next hn
      rw [hdecode hword'] at hrow' hn
      rw [step_of_next hf hw hn, state_injective (hrow'.unique hrow)]
    · rcases cause_of_next hn with hout | ⟨word, hword', hfails⟩
      · rw [hnext] at hout
        cases hout
      · rw [hdecode hword'] at hfails
        exact absurd hfails (hfree cause)

/-- A machine about to add VF to itself. -/
def doublingFlag : Machine := { powerOn {} 0 with
  memory := ⟨overlay Memory.zero.bytes 0x200 [0x8F, 0xF4]⟩
  v := setAt zeroRegisters 0xF 0x90 }

/-- The sum is lost to its own carry. -/
theorem step_iff_row_doublingFlag : ∃ after : Machine,
    doublingFlag.step = ⟨.ok .advanced, after⟩ ∧
      Row doublingFlag.state (.alu 0xF 0xF .add) after.state ∧ after.v.get 0xF = 1 := by
  have hi (word : UInt16) : Instruction.alu 0xF 0xF .add ≠ .unknown word :=
    Instruction.noConfusion
  have hpc : doublingFlag.pc.toNat + 1 < 4096 := by decide
  have hword : doublingFlag.state.word = (Instruction.alu 0xF 0xF .add).encode.toNat := by
    decide +kernel
  have hnext : Execution.next doublingFlag =
      (Instruction.alu 0xF 0xF .add).execute doublingFlag.pastFetch := by
    rw [Execution.next_apply, doublingFlag.nextWord_of_state hpc hword]
    dsimp only
    rw [Instruction.decode_encode hi]
  have hstep := step_of_next rfl rfl (hnext.trans (Instruction.execute_alu ..))
  exact ⟨_, hstep, ((step_iff_row rfl rfl hi hpc hword).mp hstep).2.2, by decide +kernel⟩

end Machine

end Chip8
