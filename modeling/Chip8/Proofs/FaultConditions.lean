import Mathlib.Order.Bounds.Defs
import Chip8.Proofs.History

/-!
When a step fails, and with what. The word at the program counter is not wholly in memory, or the
instruction table has something against the instruction; in every other state the step goes through.
A fault of memory names the first byte outside that the step has to access, but for a draw of no
rows, which accesses none and still fails where the index register is past the end of memory.
-/

namespace Chip8

open Table (Fails)

namespace Table.State

variable {s : State} {i : Instruction} {x y n : Nibble}

theorem visibleRows_eq_zero (hh : 0 < s.height) (h : s.visibleRows y n = 0) : n = 0 := by
  have hy := Nat.mod_lt (s.v y) hh
  unfold visibleRows at h
  apply Fin.ext
  change n.val = 0
  omega

/-- Only a draw can do with no bytes. -/
theorem draw_of_accesses_eq_zero (h : s.accesses i = some 0) :
    ∃ x y n, i = .draw x y n ∧ s.visibleRows y n = 0 := by
  cases i with
  | draw x y n => exact ⟨x, y, n, rfl, Option.some.inj h⟩
  | _ => cases h

end Table.State

namespace Machine

/-- Why the next step fails, and with what. -/
inductive Faulty (m : Machine) : Fault → Prop
  /-- The word at the program counter is not wholly in memory. -/
  | fetch (h : 4095 ≤ m.pc.toNat) : Faulty m (.memoryOutOfBounds (max m.pc.toNat 4096))
  /-- The table has something against the instruction. -/
  | execute {i : Instruction} {cause : Fault} (hi : m.Executes i) (h : Fails m.state i cause) :
      Faulty m cause

/-- The bytes that the next step has to access: those of the word at the program counter, and those
from the index register on that its instruction reads or stores. -/
inductive Touches (m : Machine) : Nat → Prop
  | high : Touches m m.pc.toNat
  | low : Touches m (m.pc.toNat + 1)
  | operand {i : Instruction} {len k : Nat} (hi : m.Executes i)
      (hlen : m.state.accesses i = some len) (hk : k < len) : Touches m (m.index.toNat + k)

variable {m : Machine} {i : Instruction} {cause : Fault} {a : Nat}

theorem Executes.pc_lt (h : m.Executes i) : m.pc.toNat + 1 < 4096 := by
  obtain ⟨-, -, word, hword, -⟩ := h
  exact Memory.lt_of_readWord hword

theorem faulty_of_next {after : Machine} (hf : m.fault = none) (hw : m.awaiting = none)
    (h : Execution.next m = .error cause after) : m.Faulty cause := by
  rcases cause_of_next h with hout | ⟨word, hword, hfails⟩
  · obtain ⟨hpc, rfl⟩ := Memory.readWord_eq_error.mp hout
    exact .fetch (Nat.le_of_succ_le_succ hpc)
  · exact .execute ⟨hf, hw, word, hword, rfl⟩ hfails

theorem faulty_of_result {e : StepError} (hf : m.fault = none) (hw : m.awaiting = none)
    (h : m.step.result = .error e) : ∃ cause, e = .fault cause ∧ m.Faulty cause := by
  rcases hn : Execution.next m with ⟨o, after⟩ | ⟨cause, after⟩
  · rw [step_of_next hf hw hn] at h
    cases h
  · rw [step_of_next_error hf hw hn] at h
    cases h
    exact ⟨cause, rfl, faulty_of_next hf hw hn⟩

theorem Faulty.result_eq (h : m.Faulty cause) (hf : m.fault = none) (hw : m.awaiting = none) :
    m.step.result = .error (.fault cause) := by
  cases h with
  | fetch hpc =>
    have hout : m.nextWord = .error (.memoryOutOfBounds (max m.pc.toNat 4096)) :=
      Memory.readWord_eq_error.mpr ⟨Nat.succ_le_succ hpc, rfl⟩
    have hnext : Execution.next m = .error (.memoryOutOfBounds (max m.pc.toNat 4096)) m := by
      rw [Execution.next_apply, hout]
    rw [step_of_next_error hf hw hnext]
  | execute hi hfails => rw [hi.step_error (Instruction.execute_of_fails hfails)]

/-- A step fails where there is a reason to, with the fault that goes with the reason, and
otherwise it goes through. A word is unknown if no instruction has it. -/
theorem step_fails_iff (hf : m.fault = none) (hw : m.awaiting = none) :
    (∀ e, m.step.result = .error e ↔ ∃ cause, e = .fault cause ∧ m.Faulty cause) ∧
      ((∃ o, m.step.result = .ok o) ↔ ∀ cause, ¬m.Faulty cause) ∧
      ∀ word, m.Executes (.unknown word) ↔
        m.nextWord = .ok word ∧ ∀ i : Instruction, i.encode = word → i = .unknown word := by
  refine ⟨?_, ?_, ?_⟩
  · intro e
    constructor
    · intro he
      exact faulty_of_result hf hw he
    · rintro ⟨cause, rfl, hcause⟩
      exact hcause.result_eq hf hw
  · constructor
    · rintro ⟨o, ho⟩ cause hcause
      cases ho.symm.trans (hcause.result_eq hf hw)
    · intro hfree
      rcases hn : Execution.next m with ⟨o, after⟩ | ⟨cause, after⟩
      · exact ⟨o, congrArg Step.result (step_of_next hf hw hn)⟩
      · exact absurd (faulty_of_next hf hw hn) (hfree cause)
  · intro word
    constructor
    · rintro ⟨-, -, word', hword, hdecode⟩
      obtain rfl := Instruction.eq_of_decode_unknown hdecode
      exact ⟨hword, Instruction.decode_eq_unknown_iff.mp hdecode⟩
    · rintro ⟨hword, hnone⟩
      exact ⟨hf, hw, word, hword, Instruction.decode_eq_unknown_iff.mpr hnone⟩

/-- A machine about to save all registers with room for fifteen. -/
def savingAtEnd : Machine := { powerOn {} 0 with
  memory := ⟨overlay Memory.zero.bytes 0x200 [0xFF, 0x55]⟩
  index := 0xFF1 }

theorem savingAtEnd_executes : savingAtEnd.Executes (.saveRegisters 0xF) :=
  ⟨rfl, rfl, 0xFF55, by decide +kernel, by decide⟩

/-- One address lower it goes through. -/
theorem step_fails_iff_savingAtEnd :
    savingAtEnd.step.result = .error (.fault (.memoryOutOfBounds 0x1000)) ∧
      ∃ o, ({ savingAtEnd with index := 0xFF0 } : Machine).step.result = .ok o := by
  obtain ⟨hfails, -⟩ := step_fails_iff (m := savingAtEnd) rfl rfl
  obtain ⟨-, hgoes, -⟩ := step_fails_iff (m := { savingAtEnd with index := 0xFF0 }) rfl rfl
  constructor
  · exact (hfails _).mpr ⟨_, rfl, .execute savingAtEnd_executes (.access rfl (by decide))⟩
  · apply hgoes.mpr
    rintro cause (hpc | ⟨hi, hfault⟩)
    · revert hpc
      decide
    · obtain rfl := Executes.unique hi savingAtEnd_executes
      cases hfault with
      | access hlen hout =>
        cases hlen
        revert hout
        decide

/-- The bytes of a word that is fetched are in memory, so what a step touches outside is what its
instruction accesses. -/
theorem Touches.index_le {b : Nat} (h : m.Touches b) (hi : m.Executes i) (hb : 4096 ≤ b) :
    m.index.toNat ≤ b := by
  have hpc := hi.pc_lt
  cases h with
  | high => omega
  | low => omega
  | operand => exact Nat.le_add_right ..

theorem isLeast_of_fetch (hpc : 4095 ≤ m.pc.toNat) :
    IsLeast {b | m.Touches b ∧ 4096 ≤ b} (max m.pc.toNat 4096) := by
  constructor
  · refine ⟨?_, Nat.le_max_right ..⟩
    by_cases hin : m.pc.toNat < 4096
    · have hlow : max m.pc.toNat 4096 = m.pc.toNat + 1 := by omega
      rw [hlow]
      exact .low
    · rw [Nat.max_eq_left (Nat.not_lt.mp hin)]
      exact .high
  · rintro b ⟨htouches, hb⟩
    refine Nat.max_le.mpr ⟨?_, hb⟩
    cases htouches with
    | high => exact Nat.le_refl _
    | low => exact Nat.le_add_right ..
    | operand hi =>
      have := hi.pc_lt
      omega

theorem isLeast_of_access {len : Nat} (hi : m.Executes i) (hlen : m.state.accesses i = some len)
    (hpos : 0 < len) (hout : 4096 < m.index.toNat + len) :
    IsLeast {b | m.Touches b ∧ 4096 ≤ b} (max m.index.toNat 4096) := by
  constructor
  · refine ⟨?_, Nat.le_max_right ..⟩
    have hoffset : max m.index.toNat 4096 =
        m.index.toNat + (max m.index.toNat 4096 - m.index.toNat) := by omega
    rw [hoffset]
    exact .operand hi hlen (by omega)
  · rintro b ⟨htouches, hb⟩
    exact Nat.max_le.mpr ⟨htouches.index_le hi hb, hb⟩

/-- A fault of memory names the lowest byte outside of those that the step has to access, or the sum
that is too large for the index register. The one other case is a draw of no rows with the index
register past the end of memory. An instruction that accesses no bytes but those of its own word
raises none, adding to the index register apart. -/
theorem memory_fault_names_byte_outside (hf : m.fault = none) (hw : m.awaiting = none)
    (hh : 0 < m.display.height) :
    (∀ a, m.step.result = .error (.fault (.memoryOutOfBounds a)) →
      (∃ x, m.Executes (.addIndex x) ∧ a = m.index.toNat + (m.v.get x).toNat ∧ 65535 < a) ∨
        IsLeast {b | m.Touches b ∧ 4096 ≤ b} a ∨
        ∃ x y, m.Executes (.draw x y 0) ∧ a = m.index.toNat ∧ 4096 < a) ∧
      ∀ i, m.Executes i → m.state.accesses i = none → (∀ x, i ≠ .addIndex x) →
        ∀ a, m.step.result ≠ .error (.fault (.memoryOutOfBounds a)) := by
  constructor
  · intro a h
    obtain ⟨cause, hcause, hfaulty⟩ := faulty_of_result hf hw h
    obtain rfl := StepError.fault.inj hcause
    cases hfaulty with
    | fetch hpc => exact .inr (.inl (isLeast_of_fetch hpc))
    | execute hi hfails =>
      cases hfails with
      | addIndex hsum => exact .inl ⟨_, hi, rfl, hsum⟩
      | @access _ len hlen hout =>
        -- A range is checked before its length is looked at, so one of no bytes can be refused.
        rcases Nat.eq_zero_or_pos len with rfl | hpos
        · obtain ⟨x, y, n, rfl, hrows⟩ := Table.State.draw_of_accesses_eq_zero hlen
          obtain rfl := Table.State.visibleRows_eq_zero hh hrows
          have hindex : max m.index.toNat 4096 = m.index.toNat :=
            Nat.max_eq_left (Nat.le_of_lt hout)
          exact .inr (.inr ⟨x, y, hi, hindex, Nat.lt_of_lt_of_eq hout hindex.symm⟩)
        · exact .inr (.inl (isLeast_of_access hi hlen hpos hout))
  · intro i hi hnone hadd a h
    obtain ⟨cause, hcause, hfaulty⟩ := faulty_of_result hf hw h
    obtain rfl := StepError.fault.inj hcause
    cases hfaulty with
    | fetch hpc => exact absurd hi.pc_lt (Nat.not_lt.mpr (Nat.succ_le_succ hpc))
    | execute hj hfails =>
      obtain rfl := hi.unique hj
      cases hfails with
      | addIndex => exact hadd _ rfl
      | access hlen => cases hnone.symm.trans hlen

/-- The first register past the end is the one that is named. -/
theorem memory_fault_names_byte_outside_savingAtEnd :
    savingAtEnd.step.result = .error (.fault (.memoryOutOfBounds 0x1000)) ∧
      IsLeast {b | savingAtEnd.Touches b ∧ 4096 ≤ b} 0x1000 := by
  have hfaulty : savingAtEnd.Faulty (.memoryOutOfBounds 0x1000) :=
    .execute savingAtEnd_executes (.access rfl (by decide))
  have hresult := hfaulty.result_eq rfl rfl
  refine ⟨hresult, ?_⟩
  rcases (memory_fault_names_byte_outside rfl rfl (by decide)).1 _ hresult with
    ⟨x, hadd, -⟩ | hleast | ⟨x, y, hdraw, -⟩
  · cases hadd.unique savingAtEnd_executes
  · exact hleast
  · cases hdraw.unique savingAtEnd_executes

/-- The index register is taken past the end of memory, then no rows are drawn. -/
def drawingNothing : Machine :=
  (powerOn {} 0).acts
    [.loadRom [0xAF, 0xFF, 0x60, 0xFF, 0xF0, 0x1E, 0xD0, 0x00], .step, .step, .step]

/-- A fault for bytes that no instruction accesses: the draw fails, and all that it has to access is
its own word. -/
theorem memory_fault_without_access :
    drawingNothing.Reachable {} ∧ drawingNothing.Executes (.draw 0 0 0) ∧
      drawingNothing.step.result = .error (.fault (.memoryOutOfBounds 0x10FE)) ∧
      (∀ x, ¬drawingNothing.Executes (.addIndex x)) ∧
      ¬IsLeast {b | drawingNothing.Touches b ∧ 4096 ≤ b} 0x10FE := by
  have hbuild : Machine.build {} 0 = .ok (powerOn {} 0) := rfl
  obtain ⟨hf, hw, hword, hindex⟩ : drawingNothing.fault = none ∧ drawingNothing.awaiting = none ∧
      drawingNothing.nextWord = .ok 0xD000 ∧ drawingNothing.state.index = 0x10FE := by
    decide +kernel
  have hdraw : drawingNothing.Executes (.draw 0 0 0) := ⟨hf, hw, 0xD000, hword, by decide⟩
  have hnone : drawingNothing.state.accesses (.draw 0 0 0) = some 0 :=
    congrArg some (Nat.zero_min _)
  have hfaulty : drawingNothing.Faulty (.memoryOutOfBounds (max drawingNothing.state.index 4096)) :=
    .execute hdraw (.access hnone (by rw [hindex]; decide))
  rw [hindex] at hfaulty
  refine ⟨(Reachable.build hbuild).acts _, hdraw, hfaulty.result_eq hf hw, ?_, ?_⟩
  · intro x hadd
    cases hadd.unique hdraw
  · rintro ⟨⟨htouches, -⟩, -⟩
    generalize hb : 0x10FE = b at htouches
    have hpc := hdraw.pc_lt
    cases htouches with
    | high => omega
    | low => omega
    | operand hi hlen hk =>
      obtain rfl := hi.unique hdraw
      obtain rfl := Option.some.inj (hnone.symm.trans hlen)
      exact Nat.not_lt_zero _ hk

end Machine

end Chip8
