import Chip8.Proofs.CheckedPicture
import Chip8.Proofs.Refinement

/-!
Nothing goes wrong in a number. On every machine that a host can arrive at, whatever its program,
each checked operation has a result, and it is the result of the operation itself.
-/

namespace Chip8

open Table (Row)

/-- A screen with cells, whose area is a 64-bit number, and a program that fits. -/
structure Machine.Sized (m : Machine) : Prop where
  width_pos : 0 < m.display.width
  height_pos : 0 < m.display.height
  area_lt : m.display.width * m.display.height < 2 ^ 64
  rom_le : m.rom.length ≤ Memory.programCapacity

namespace Machine

variable {config : Config} {m : Machine}

theorem sized_of_build {seed : UInt64} (h : Machine.build config seed = .ok m) : Sized m := by
  obtain ⟨hvalid, hfits, rfl⟩ := of_build h
  obtain ⟨hw, hh⟩ := Config.size_pos_of_validate hvalid
  have harea := Config.area_lt_of_fitsHost hfits
  exact ⟨hw, hh, Nat.lt_of_lt_of_le harea (by decide), Nat.zero_le _⟩

theorem Sized.of_next {after : Machine} {o : Outcome} (h : Sized m)
    (hn : Execution.next m = .ok o after) : Sized after := by
  obtain ⟨word, -, -, -, hrow⟩ := row_of_next hn
  obtain ⟨-, -, hrom, hwidth, hheight, -⟩ := hrow.frame
  change after.rom = m.rom at hrom
  change after.display.width = m.display.width at hwidth
  change after.display.height = m.display.height at hheight
  constructor
  · rw [hwidth]
    exact h.width_pos
  · rw [hheight]
    exact h.height_pos
  · rw [hwidth, hheight]
    exact h.area_lt
  · rw [hrom]
    exact h.rom_le

theorem Sized.step (h : Sized m) : Sized m.step.machine := by
  rcases step_cases m with ⟨cause, -, hs⟩ | ⟨r, -, -, hs⟩ | ⟨o, after, -, -, hn, hs⟩ |
      ⟨cause, after, -, -, -, hs⟩ <;> rw [hs]
  · exact h
  · exact h
  · exact h.of_next hn
  · exact { h with }

theorem Sized.act (h : Sized m) (a : HostAction) : Sized (m.act a) := by
  cases a with
  | step => exact h.step
  | setKey k pressed =>
    rcases m.setKey_cases k pressed with hs | ⟨r, -, hs⟩ <;> rw [Machine.act, hs] <;>
      exact { h with }
  | loadRom rom =>
    rcases m.act_loadRom rom with hs | ⟨hlen, hs⟩ <;> rw [hs]
    · exact h
    · exact { h with rom_le := hlen }
  | tick | loadFont | reset => exact { h with }
  | assign target value =>
    rcases m.act_assign target value with hs | hs
    · rw [hs]
      exact h
    · rw [(Debugger.of_setTarget hs).2]
      exact { h with }

theorem Reachable.sized (h : m.Reachable config) : Sized m := by
  induction h with
  | build h => exact sized_of_build h
  | act _ a ih => exact ih.act a

end Machine

namespace Checked

theorem readWord_eq (m : Memory) (a : Nat) : readWord m a = some (m.readWord a) := by
  unfold readWord Memory.readWord
  by_cases ha : a < 4096
  · have hsum : sum 64 a 1 = some (a + 1) := sum_eq (by omega)
    rw [Memory.read_of_lt m ha]
    simp only [hsum, Option.bind_eq_bind, Option.bind_some]
    cases m.read (a + 1) <;> rfl
  · rw [Memory.read_of_le m (Nat.not_lt.mp ha)]

theorem checkRange_eq {a len : Nat} (h : a + len < 2 ^ 64) :
    checkRange a len = some (Memory.checkRange a len) := by
  unfold checkRange Memory.checkRange
  by_cases ha : 4096 < a
  · rw [if_pos ha, if_neg (by omega)]
  · rw [if_neg ha, sum_eq h, Option.bind_eq_bind, Option.bind_some]
    by_cases hr : a + len ≤ 4096
    · rw [if_pos hr, if_neg (by omega)]
      rfl
    · rw [if_neg hr, if_pos (by omega)]
      rfl

theorem slice_eq (m : Memory) {a len : Nat} (h : a + len < 2 ^ 64) :
    slice m a len = some (m.slice a len) := by
  unfold slice Memory.slice
  rw [checkRange_eq h]
  by_cases hr : a + len ≤ 4096
  · rw [Memory.checkRange_eq_ok.mpr hr]
    simp only [sum_eq h, part_eq (Nat.le_add_right a len) hr, Option.bind_eq_bind, Option.bind_some]
    rfl
  · rw [Memory.checkRange_eq_error.mpr ⟨Nat.not_le.mp hr, rfl⟩]
    rfl

theorem splice_eq (m : Memory) {a : Nat} {data : List UInt8} (h : a + data.length < 2 ^ 64) :
    splice m a data.length data = some (m.splice a data) := by
  unfold splice Memory.splice
  rw [checkRange_eq h]
  by_cases hr : a + data.length ≤ 4096
  · rw [Memory.checkRange_eq_ok.mpr hr]
    simp only [sum_eq h, copy_eq rfl hr, Option.bind_eq_bind, Option.bind_some]
    rfl
  · rw [Memory.checkRange_eq_error.mpr ⟨Nat.not_le.mp hr, rfl⟩]
    rfl

theorem visibleRows_eq {d : Display} (h : 0 < d.height) (y count : Nat) :
    visibleRows d y count = some (d.visibleRows y count) := by
  have hle : y % d.height ≤ d.height := Nat.le_of_lt (Nat.mod_lt y h)
  simp only [visibleRows, remainder_eq h, difference_eq hle, Option.bind_eq_bind, Option.bind_some]
  rfl

variable {m : Machine}

theorem execute_eq (h : m.Sized) (i : Instruction) : execute m i = some (i.execute m) := by
  have hindex : m.index.toNat < 2 ^ 16 := m.index.toNat_lt
  have hbyte (x : Nibble) : (m.v.get x).toNat < 2 ^ 8 := (m.v.get x).toNat_lt
  cases i with
  | draw x y n =>
    have hrows : m.index.toNat + m.display.visibleRows (m.v.get y).toNat n.val < 2 ^ 64 := by
      unfold Display.visibleRows
      omega
    rw [Instruction.execute_draw]
    simp only [execute, visibleRows_eq h.height_pos, slice_eq _ hrows,
      draw_eq h.width_pos h.height_pos h.area_lt, Option.bind_eq_bind, Option.bind_some]
    rw [Machine.spriteRows]
    cases m.memory.slice _ _ <;> rfl
  | jumpOffset nnn =>
    have hsum : sum 16 nnn.val (m.v.get 0).toNat = _ := sum_eq (by have := hbyte 0; omega)
    simp only [execute, hsum, Option.bind_eq_bind, Option.bind_some]
    rfl
  | addIndex x =>
    have hvx := hbyte x
    have haddress : sum 64 m.index.toNat (m.v.get x).toNat = _ := sum_eq (by omega)
    rw [Instruction.execute_addIndex]
    by_cases hsum : m.index.toNat + (m.v.get x).toNat < 0x10000
    · have hindex : sum 16 m.index.toNat (m.v.get x).toNat = _ := sum_eq hsum
      simp only [execute, hindex]
      rw [if_pos hsum]
    · have hnone : sum 16 m.index.toNat (m.v.get x).toNat = none := if_neg hsum
      simp only [execute, hnone, haddress, Option.bind_eq_bind, Option.bind_some]
      rw [if_neg hsum]
      rfl
  | loadGlyph x =>
    have hvx := hbyte x
    have hoffset : product 64 (m.v.get x).toNat Font.glyphSize = _ :=
      product_eq (by unfold Font.glyphSize; omega)
    simp only [execute, hoffset, Option.bind_eq_bind, Option.bind_some]
    rfl
  | storeDecimal x =>
    have hstop : m.index.toNat + (Machine.decimalDigits (m.v.get x)).length < 2 ^ 64 := by
      change m.index.toNat + 3 < 2 ^ 64
      omega
    have hsplice : splice m.memory m.index.toNat 3 _ = _ := splice_eq m.memory hstop
    rw [Instruction.execute_storeDecimal]
    simp only [execute, hsplice, Option.bind_eq_bind, Option.bind_some]
    cases m.memory.splice _ _ <;> rfl
  | saveRegisters x =>
    have hx : sum 64 x.val 1 = some (x.val + 1) := sum_eq (by omega)
    have hpart : part m.v 0 (x.val + 1) = _ := part_eq (Nat.zero_le _) x.isLt
    have htake : (m.v.extract 0 (x.val + 1)).toList = m.v.toList.take (x.val + 1) := by
      rw [Vector.toList_extract]
      rfl
    have hstop : m.index.toNat + (m.v.toList.take (x.val + 1)).length < 2 ^ 64 := by
      rw [Instruction.length_savedRegisters]
      omega
    rw [htake] at hpart
    rw [Instruction.execute_saveRegisters]
    simp only [execute, hx, hpart, splice_eq _ hstop, Option.bind_eq_bind, Option.bind_some]
    cases m.memory.splice _ _ <;> rfl
  | restoreRegisters x =>
    have hx : sum 64 x.val 1 = some (x.val + 1) := sum_eq (by omega)
    have hstop : m.index.toNat + (x.val + 1) < 2 ^ 64 := by omega
    rw [Instruction.execute_restoreRegisters]
    simp only [execute, hx, slice_eq _ hstop, Option.bind_eq_bind, Option.bind_some]
    rcases hs : m.memory.slice m.index.toNat (x.val + 1) with cause | block
    · rfl
    · have hcopy : copy m.v 0 (x.val + 1) block = _ :=
        copy_eq (by rw [Memory.length_of_slice hs, Nat.zero_add]) x.isLt
      simp only [hcopy, Option.bind_some]
      rfl
  | _ => rfl

theorem next_eq (h : m.Sized) : next m = some (Execution.next m) := by
  rw [next, readWord_eq, Execution.next_apply, Machine.nextWord, Option.bind_eq_bind,
    Option.bind_some]
  cases m.memory.readWord m.pc.toNat with
  | error cause => rfl
  | ok word =>
    have hpast : m.pastFetch.Sized := { h with }
    exact execute_eq hpast (.decode word)

theorem step_eq (h : m.Sized) : step m = some m.step := by
  unfold step Machine.step
  rw [next_eq h]
  cases m.fault with
  | some cause => rfl
  | none =>
    cases m.awaiting with
    | some r => rfl
    | none =>
      rw [Option.bind_eq_bind, Option.bind_some]
      dsimp only
      cases Execution.next m <;> rfl

theorem loadFont_eq (m : Machine) (font : Font) : loadFont m font = some (m.loadFont font) := by
  have hcopy : copy m.memory.bytes 0 80 font.toList = _ :=
    copy_eq (by rw [Vector.length_toList]) (by decide)
  rw [loadFont, hcopy]
  rfl

theorem writeRom_eq (rom : List UInt8) (m : Machine) :
    writeRom rom m = some (Machine.writeRom rom m) := by
  unfold writeRom
  rcases Machine.writeRom_cases rom m with ⟨hlen, hw⟩ | ⟨hlen, hw⟩ <;> rw [hw]
  · rw [if_pos hlen]
  · have hend := Memory.programEnd_le hlen
    rw [if_neg (Nat.not_lt.mpr hlen), splice_eq m.memory (by omega), Memory.splice_eq_ok _ hend]
    rfl

theorem reset_eq (h : m.Sized) : reset m = some m.reset := by
  have hend := Memory.programEnd_le h.rom_le
  have hsum : sum 64 Memory.programStart m.rom.length = _ := sum_eq (by omega)
  simp only [reset, loadFont_eq, hsum, copy_eq rfl hend, Option.bind_eq_bind, Option.bind_some]
  rfl

theorem act_eq (h : m.Sized) (a : HostAction) : act m a = some (m.act a) := by
  cases a with
  | step => rw [act, step_eq h]; rfl
  | loadRom rom =>
    rw [act, writeRom_eq, Machine.act, Option.bind_eq_bind, Option.bind_some]
    cases Machine.writeRom rom m <;> rfl
  | loadFont font => exact loadFont_eq m font
  | reset => exact reset_eq h
  | setKey | tick | assign => rfl

theorem stepMachine_eq (h : m.Sized) (count : Nat) :
    stepMachine count m = some (Debugger.stepMachine count m) := by
  induction count generalizing m with
  | zero => rfl
  | succ count ih =>
    unfold stepMachine Debugger.stepMachine
    rw [step_eq h, Option.bind_eq_bind, Option.bind_some]
    dsimp only
    rcases m.step.result with e | o
    · rfl
    · cases o with
      | waiting r => rfl
      | advanced | drew => exact ih h.step

theorem listWords_eq (m : Memory) (count : Nat) (a : UInt16) :
    listWords m count a = some (Debugger.listWords m count a) := by
  induction count generalizing a with
  | zero => rfl
  | succ count ih =>
    unfold listWords Debugger.listWords
    rw [readWord_eq, ih, Option.bind_eq_bind, Option.bind_some]
    cases m.readWord a.toNat <;> rfl

theorem perform_eq {d : Debugger} (h : d.machine.Sized) (c : Command) :
    perform d c = some (d.perform c) := by
  cases c with
  | step count =>
    unfold perform Debugger.perform
    dsimp only
    rw [stepMachine_eq h, Option.bind_eq_bind, Option.bind_some]
    rcases Debugger.stepMachine count.toNat d.machine with ⟨_ | _, after⟩ <;> rfl
  | dump start len =>
    unfold perform Debugger.perform
    dsimp only
    by_cases hstart : start.toNat < Memory.size
    · have hdump : start.toNat + min len.toNat (Memory.size - start.toNat) < 2 ^ 64 := by
        change start.toNat < 4096 at hstart
        change start.toNat + min len.toNat (4096 - start.toNat) < 2 ^ 64
        omega
      rw [if_pos hstart, if_pos hstart, difference_eq (Nat.le_of_lt hstart)]
      simp only [slice_eq _ hdump, Option.bind_eq_bind, Option.bind_some]
      cases d.machine.memory.slice _ _ <;> rfl
    · rw [if_neg hstart, if_neg hstart]
  | listing start len =>
    unfold perform Debugger.perform
    dsimp only
    rw [listWords_eq, Option.bind_eq_bind, Option.bind_some]
    cases Debugger.listWords d.machine.memory len.toNat (start.getD d.machine.pc) <;> rfl
  | reset =>
    unfold perform
    dsimp only
    rw [reset_eq h]
    rfl
  | run | pause | breakpoint | set | quit => rfl

end Checked

/-- In every session whatever the host does next, to the machine or by a command, has a result
with all its numbers in range, and it is the one that the machine or the debugger gives. -/
theorem Debugger.reachable_checked {config : Config} {d : Debugger} (h : d.Reachable config) :
    (∀ a, Checked.act d.machine a = some (d.machine.act a)) ∧
      ∀ c, Checked.perform d c = some (d.perform c) := by
  have hsized := (machine_reachable h).sized
  exact ⟨Checked.act_eq hsized, Checked.perform_eq hsized⟩

/-- A sprite of fifteen rows at the last byte of memory, on a screen of a single cell. -/
theorem Debugger.reachable_checked_corner : ∃ d : Debugger,
    d.Reachable { width := 1, height := 1 } ∧ d.machine.nextWord = .ok 0xD00F ∧
      d.machine.index = 0xFFF ∧ Checked.act d.machine .step = some (d.machine.act .step) := by
  have hbuild : Machine.build { width := 1, height := 1 } 0 =
      .ok (Machine.powerOn { width := 1, height := 1 } 0) := rfl
  have h := ((Reachable.start hbuild).act (.loadRom [0xD0, 0x0F])).act (.assign .index 0xFFF)
  exact ⟨_, h, by decide +kernel, by decide +kernel, (reachable_checked h).1 .step⟩

end Chip8
