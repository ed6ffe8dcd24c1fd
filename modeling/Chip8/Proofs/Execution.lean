import Chip8.Machine.Step

/-!
What executions come to. Every instruction checks before it writes: the equations below have the
machine as it was wherever a fault comes out. So a step that fails changes nothing but the latched
fault, and a program that does not fit changes nothing at all.
-/

namespace Chip8

namespace Execution

variable {α β : Type}

theorem bind_apply (x : Execution α) (f : α → Execution β) (m : Machine) :
    (x >>= f) m = match x m with
      | .ok a after => f a after
      | .error cause after => .error cause after := by
  change EStateM.bind x f m = _
  unfold EStateM.bind
  cases x m <;> rfl

theorem get_apply (m : Machine) : (get : Execution Machine) m = .ok m m := rfl

theorem modify_apply (f : Machine → Machine) (m : Machine) :
    (modify f : Execution Unit) m = .ok () (f m) := rfl

theorem ofExcept_ok (a : α) (m : Machine) : (ofExcept (.ok a) : Execution α) m = .ok a m := rfl

theorem ofExcept_error (cause : Fault) (m : Machine) :
    (ofExcept (.error cause) : Execution α) m = .error cause m := rfl

@[simp] theorem advance_apply (f : Machine → Machine) (m : Machine) :
    advance f m = .ok .advanced (f m) := rfl

theorem fetch_apply (m : Machine) : fetch m = match m.nextWord with
    | .ok word => .ok word m.pastFetch
    | .error cause => .error cause m := by
  unfold fetch
  rcases h : m.nextWord with cause | word <;>
    simp only [bind_apply, get_apply, h, ofExcept_ok, ofExcept_error]
  rfl

theorem writeAtIndex_apply (data : List UInt8) (m : Machine) :
    writeAtIndex data m = match m.memory.splice m.index.toNat data with
      | .ok memory => .ok () { m with memory }
      | .error cause => .error cause m := by
  unfold writeAtIndex
  rcases h : m.memory.splice m.index.toNat data with cause | memory <;>
    simp only [bind_apply, get_apply, h, ofExcept_ok, ofExcept_error]
  rfl

end Execution

namespace Instruction

open Execution

variable (m : Machine)

theorem execute_ret : ret.execute m = match m.stack.pop with
    | .ok (a, stack) => .ok .advanced { m with pc := a, stack }
    | .error cause => .error cause m := by
  unfold execute popCall
  rcases h : m.stack.pop with cause | ⟨a, stack⟩ <;>
    simp only [bind_apply, get_apply, h, ofExcept_ok, ofExcept_error]
  rfl

theorem execute_call (nnn : Address) : (call nnn).execute m = match m.stack.push m.pc with
    | .ok stack => .ok .advanced { m with pc := UInt16.ofNat nnn.val, stack }
    | .error cause => .error cause m := by
  unfold execute pushCall
  rcases h : m.stack.push m.pc with cause | stack <;>
    simp only [bind_apply, get_apply, h, ofExcept_ok, ofExcept_error]
  rfl

/-- The flag is the last to be written. -/
theorem execute_alu (x y : Nibble) (op : AluOp) :
    (alu x y op).execute m =
      let result := op.eval (m.v.get x) (m.v.get y)
      .ok .advanced (match result.flag with
        | some flag => (m.setRegister x result.value).setFlag flag
        | none => m.setRegister x result.value) := by
  cases op <;> rfl

theorem execute_random (x : Nibble) (nn : UInt8) :
    (random x nn).execute m = .ok .advanced
      ({ m with random := m.random.advance }.setRegister x (m.random.peek &&& nn)) := rfl

theorem execute_draw (x y n : Nibble) : (draw x y n).execute m = match m.spriteRows y n with
    | .ok sprite =>
      let drawn := m.display.draw (m.v.get x).toNat (m.v.get y).toNat sprite
      .ok .drew ({ m with display := drawn.1 }.setFlag drawn.2)
    | .error cause => .error cause m := by
  unfold execute
  rcases h : m.spriteRows y n with cause | sprite <;>
    simp only [bind_apply, get_apply, h, ofExcept_ok, ofExcept_error]
  rfl

theorem execute_addIndex (x : Nibble) :
    (addIndex x).execute m =
      let sum := m.index.toNat + (m.v.get x).toNat
      if sum < 0x10000 then .ok .advanced { m with index := UInt16.ofNat sum }
      else .error (.memoryOutOfBounds sum) m := by
  simp only [execute, bind_apply, get_apply]
  split
  · rw [if_neg (by omega)]
    rfl
  · rw [if_pos (by omega)]
    rfl

theorem execute_storeDecimal (x : Nibble) :
    (storeDecimal x).execute m =
      match m.memory.splice m.index.toNat (Machine.decimalDigits (m.v.get x)) with
      | .ok memory => .ok .advanced { m with memory }
      | .error cause => .error cause m := by
  simp only [execute, bind_apply, get_apply, writeAtIndex_apply]
  cases m.memory.splice m.index.toNat (Machine.decimalDigits (m.v.get x)) <;> rfl

theorem execute_saveRegisters (x : Nibble) :
    (saveRegisters x).execute m =
      match m.memory.splice m.index.toNat (m.v.toList.take (x.val + 1)) with
      | .ok memory => .ok .advanced { m with memory }
      | .error cause => .error cause m := by
  simp only [execute, bind_apply, get_apply, writeAtIndex_apply]
  cases m.memory.splice m.index.toNat (m.v.toList.take (x.val + 1)) <;> rfl

theorem execute_restoreRegisters (x : Nibble) :
    (restoreRegisters x).execute m =
      match m.memory.slice m.index.toNat (x.val + 1) with
      | .ok block => .ok .advanced { m with v := overlay m.v 0 block }
      | .error cause => .error cause m := by
  unfold execute
  rcases h : m.memory.slice m.index.toNat (x.val + 1) with cause | block <;>
    simp only [bind_apply, get_apply, h, ofExcept_ok, ofExcept_error]
  rfl

theorem execute_unknown (word : UInt16) :
    (unknown word).execute m = match m.config.unknownOpcodes with
      | .fault => .error (.unknownOpcode word) m
      | .ignore => .ok .advanced m := by
  unfold execute
  rcases h : m.config.unknownOpcodes <;> simp only [bind_apply, get_apply, h] <;> rfl

variable {m}

/-- An instruction that faults has written nothing. -/
theorem execute_error {i : Instruction} {after : Machine} {cause : Fault}
    (h : i.execute m = .error cause after) : after = m := by
  cases i with
  | ret =>
    rw [execute_ret] at h
    split at h <;> cases h
    rfl
  | call nnn =>
    rw [execute_call] at h
    split at h <;> cases h
    rfl
  | alu x y op =>
    rw [execute_alu] at h
    cases h
  | draw x y n =>
    rw [execute_draw] at h
    split at h <;> cases h
    rfl
  | addIndex x =>
    rw [execute_addIndex] at h
    dsimp only at h
    split at h <;> cases h
    rfl
  | storeDecimal x =>
    rw [execute_storeDecimal] at h
    split at h <;> cases h
    rfl
  | saveRegisters x =>
    rw [execute_saveRegisters] at h
    split at h <;> cases h
    rfl
  | restoreRegisters x =>
    rw [execute_restoreRegisters] at h
    split at h <;> cases h
    rfl
  | unknown word =>
    rw [execute_unknown] at h
    split at h <;> cases h
    rfl
  | _ => cases h

end Instruction

theorem Execution.next_apply (m : Machine) : next m = match m.nextWord with
    | .ok word => (Instruction.decode word).execute m.pastFetch
    | .error cause => .error cause m := by
  unfold next
  rw [bind_apply, fetch_apply]
  cases m.nextWord <;> rfl

/-- At a fault the program counter is all that has moved. -/
theorem Execution.next_error {m after : Machine} {cause : Fault}
    (h : next m = .error cause after) : { after with pc := m.pc } = m := by
  rw [next_apply] at h
  split at h
  · rw [Instruction.execute_error h]
    rfl
  · cases h
    rfl

namespace Machine

variable {m after : Machine}

theorem step_of_fault {cause : Fault} (h : m.fault = some cause) :
    m.step = ⟨.error .halted, m⟩ := by
  rw [step, h]

theorem step_of_awaiting {r : Nibble} (hf : m.fault = none) (h : m.awaiting = some r) :
    m.step = ⟨.ok (.waiting r), m⟩ := by
  rw [step, hf, h]

theorem step_of_next {o : Outcome} (hf : m.fault = none) (hw : m.awaiting = none)
    (h : Execution.next m = .ok o after) : m.step = ⟨.ok o, after⟩ := by
  rw [step, hf, hw, h]

theorem step_of_next_error {cause : Fault} (hf : m.fault = none) (hw : m.awaiting = none)
    (h : Execution.next m = .error cause after) :
    m.step = ⟨.error (.fault cause), { m with fault := some cause }⟩ := by
  have hs : m.step =
      ⟨.error (.fault cause), { after with pc := m.pc, fault := some cause }⟩ := by
    rw [step, hf, hw, h]
  exact hs.trans (congrArg
    (fun n : Machine => (⟨.error (.fault cause), { n with fault := some cause }⟩ : Step))
    (Execution.next_error h))

/-- A step is refused, waits, goes through or faults. -/
theorem step_cases (m : Machine) :
    (∃ cause, m.fault = some cause ∧ m.step = ⟨.error .halted, m⟩) ∨
    (∃ r, m.fault = none ∧ m.awaiting = some r ∧ m.step = ⟨.ok (.waiting r), m⟩) ∨
    (∃ o after, m.fault = none ∧ m.awaiting = none ∧ Execution.next m = .ok o after ∧
      m.step = ⟨.ok o, after⟩) ∨
    ∃ cause after, m.fault = none ∧ m.awaiting = none ∧
      Execution.next m = .error cause after ∧
      m.step = ⟨.error (.fault cause), { m with fault := some cause }⟩ := by
  obtain hf | ⟨cause, hf⟩ := Option.eq_none_or_eq_some m.fault
  · obtain hw | ⟨r, hw⟩ := Option.eq_none_or_eq_some m.awaiting
    · rcases hn : Execution.next m with ⟨o, after⟩ | ⟨cause, after⟩
      · exact .inr (.inr (.inl ⟨o, after, hf, hw, rfl, step_of_next hf hw hn⟩))
      · exact .inr (.inr (.inr ⟨cause, after, hf, hw, rfl, step_of_next_error hf hw hn⟩))
    · exact .inr (.inl ⟨r, hf, hw, step_of_awaiting hf hw⟩)
  · exact .inl ⟨cause, hf, step_of_fault hf⟩

/-- A failed step leaves every component as it was, the program counter at the instruction
included, and latches the first fault of all; a program that is refused leaves no trace. -/
theorem failure_changes_nothing (m : Machine) :
    (∀ e, m.step.result = .error e →
      m.step.machine = { m with fault := m.step.machine.fault } ∧
      match m.fault with
      | none => ∃ cause, e = .fault cause ∧ m.step.machine.fault = some cause
      | some cause => e = .halted ∧ m.step.machine.fault = some cause) ∧
    ∀ rom refusal after, writeRom rom m = .error refusal after → after = m := by
  constructor
  · intro e he
    rcases step_cases m with ⟨cause, hf, hs⟩ | ⟨r, hf, -, hs⟩ | ⟨o, after, hf, -, -, hs⟩ |
        ⟨cause, after, hf, -, -, hs⟩ <;> rw [hs] at he ⊢ <;> cases he
    · exact ⟨rfl, by rw [hf]; exact ⟨rfl, rfl⟩⟩
    · exact ⟨rfl, by rw [hf]; exact ⟨cause, rfl, rfl⟩⟩
  · intro rom refusal after h
    rcases writeRom_cases rom m with ⟨-, hw⟩ | ⟨-, hw⟩ <;> rw [hw] at h <;> cases h
    rfl

/-- A machine about to save two registers where memory has room for one. -/
def savingPastEnd : Machine := { powerOn {} 0 with
  memory := ⟨overlay Memory.zero.bytes 0x200 [0xF1, 0x55]⟩
  index := 0xFFF }

/-- Not even the register that would fit is saved. -/
theorem failure_changes_nothing_savingPastEnd :
    savingPastEnd.step.result = .error (.fault (.memoryOutOfBounds 0x1000)) ∧
      savingPastEnd.step.machine =
        { savingPastEnd with fault := savingPastEnd.step.machine.fault } := by
  have hmemory : Memory.zero.splice 0x200 [0xF1, 0x55] = .ok savingPastEnd.memory := rfl
  have hword : savingPastEnd.nextWord = .ok 0xF155 := by
    rw [nextWord, Memory.readWord, Memory.read_splice hmemory, Memory.read_splice hmemory]
    rfl
  have hsplice : savingPastEnd.pastFetch.memory.splice savingPastEnd.pastFetch.index.toNat
      (savingPastEnd.pastFetch.v.toList.take ((1 : Nibble).val + 1)) =
        .error (.memoryOutOfBounds 0x1000) :=
    Memory.splice_eq_error.mpr ⟨by decide, rfl⟩
  have hnext : Execution.next savingPastEnd =
      .error (.memoryOutOfBounds 0x1000) savingPastEnd.pastFetch := by
    rw [Execution.next_apply, hword]
    change (Instruction.saveRegisters 1).execute savingPastEnd.pastFetch = _
    rw [Instruction.execute_saveRegisters, hsplice]
  have hresult : savingPastEnd.step.result = .error (.fault (.memoryOutOfBounds 0x1000)) := by
    rw [step_of_next_error rfl rfl hnext]
  exact ⟨hresult, ((failure_changes_nothing savingPastEnd).1 _ hresult).1⟩

end Machine

end Chip8
