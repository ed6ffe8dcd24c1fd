import Chip8.Proofs.Execution
import Chip8.Proofs.State
import Mathlib.Data.List.GetD

/-!
Executions as rows of the instruction table. What goes through ends in the state of the one row for
its instruction, and what faults has a reason in the table; whatever has one faults.
-/

namespace Chip8

open Table (Row Fails outcome)

theorem Table.Row.congr {s s₁ s₂ : Table.State} {i : Instruction} (h : Row s i s₁)
    (he : s₂ = s₁) : Row s i s₂ := he ▸ h

namespace Instruction

open Machine

theorem toNat_decide {p : Prop} [Decidable p] : (decide p).toNat = if p then 1 else 0 := by
  by_cases h : p <;> simp [h]

theorem toNat_sub_byte (a b : UInt8) : (a - b).toNat = (a.toNat + 256 - b.toNat) % 256 := by
  have hb := b.toNat_lt
  rw [UInt8.toNat_sub]
  congr 1
  omega

theorem toNat_shiftRight_one (a : UInt8) : (a >>> 1).toNat = a.toNat / 2 := by
  rw [UInt8.toNat_shiftRight]
  exact Nat.shiftRight_eq_div_pow ..

theorem toNat_shiftLeft_one (a : UInt8) : (a <<< 1).toNat = 2 * a.toNat % 256 := by
  rw [UInt8.toNat_shiftLeft, Nat.mul_comm]
  exact congrArg (· % 256) (Nat.shiftLeft_eq ..)

theorem toNat_lowBit (a : UInt8) : (decide (a &&& 1 = 1)).toNat = a.toNat % 2 := by
  have h : a &&& 1 = 1 ↔ a.toNat % 2 = 1 := by
    rw [← UInt8.toNat_inj, UInt8.toNat_and]
    exact Eq.congr (Nat.and_one_is_mod _) rfl
  rw [toNat_decide, if_congr h rfl rfl]
  split <;> omega

theorem toNat_highBit (a : UInt8) : (decide (128 ≤ a)).toNat = a.toNat / 128 := by
  have h := a.toNat_lt
  rw [toNat_decide, if_congr UInt8.le_iff_toNat_le rfl rfl]
  split <;> simp at * <;> omega

variable {m after : Machine} {o : Outcome}

theorem alu_row (hp : m.pc.toNat + 2 < 65536) {x y : Nibble} {op : AluOp}
    (h : (alu x y op).execute m.pastFetch = .ok o after) :
    o = .advanced ∧ Row m.state (alu x y op) after.state := by
  rw [execute_alu] at h
  cases op <;> cases h <;> refine ⟨rfl, ?_⟩
  · exact .congr .mov (state_set hp rfl)
  · exact .congr .or (state_set hp (UInt8.toNat_or ..))
  · exact .congr .and (state_set hp (UInt8.toNat_and ..))
  · exact .congr .xor (state_set hp (UInt8.toNat_xor ..))
  · exact .congr .add (state_setWithFlag hp (UInt8.toNat_add ..) toNat_decide)
  · exact .congr .sub (state_setWithFlag hp (toNat_sub_byte ..) toNat_decide)
  · exact .congr .shr (state_setWithFlag hp (toNat_shiftRight_one _) (toNat_lowBit _))
  · exact .congr .subn (state_setWithFlag hp (toNat_sub_byte ..) toNat_decide)
  · exact .congr .shl (state_setWithFlag hp (toNat_shiftLeft_one _) (toNat_highBit _))

theorem ret_row (h : ret.execute m.pastFetch = .ok o after) :
    o = .advanced ∧ Row m.state ret after.state := by
  rw [execute_ret] at h
  rcases m.pastFetch.stack.pop_cases with ⟨a, rest, hs, hp⟩ | ⟨-, hp⟩
  · rw [hp] at h
    cases h
    exact ⟨rfl, .ret (congrArg (List.map UInt16.toNat) hs)⟩
  · rw [hp] at h
    cases h

theorem call_row (hp : m.pc.toNat + 2 < 65536) {nnn : Address}
    (h : (call nnn).execute m.pastFetch = .ok o after) :
    o = .advanced ∧ Row m.state (call nnn) after.state := by
  rw [execute_call] at h
  rcases m.pastFetch.stack.push_cases m.pastFetch.pc with ⟨-, hs⟩ | ⟨-, hs⟩
  · rw [hs] at h
    cases h
    have hstack : ((m.pc + 2) :: m.stack.entries).map UInt16.toNat =
        (m.pc.toNat + 2) :: m.stack.entries.map UInt16.toNat := by
      rw [List.map_cons, toNat_add_two hp]
    refine ⟨rfl, .congr .call ?_⟩
    exact (state_jump { m with stack := ⟨m.stack.depth, (m.pc + 2) :: m.stack.entries⟩ }
      (by omega)).trans (congrArg (fun stack => { m.state with pc := nnn.val, stack }) hstack)
  · rw [hs] at h
    cases h

/-- The sprite read from memory flips the pixels that the table says it covers. -/
theorem flips_eq_covers {x y n : Nibble} {sprite : List UInt8}
    (h : m.spriteRows y n = .ok sprite) (px py : Nat) :
    m.display.flips (m.v.get x).toNat (m.v.get y).toNat sprite px py =
      m.state.covers x y n px py := by
  have hlen : sprite.length = min n.val (m.state.height - m.state.v y % m.state.height) :=
    Memory.length_of_slice h
  have hbit (hrow : py - m.state.v y % m.state.height < sprite.length) :
      (sprite.getD (py - m.state.v y % m.state.height) 0).toNat =
        m.state.memory (m.state.index + (py - m.state.v y % m.state.height)) :=
    Memory.numberAt_of_slice h (Nat.lt_of_lt_of_eq hrow hlen)
  rw [Bool.eq_iff_iff]
  change (_ ≤ px && px < min (m.state.v x % m.state.width + 8) m.state.width &&
    m.state.v y % m.state.height ≤ py &&
    py < min (m.state.v y % m.state.height + sprite.length) m.state.height &&
    (sprite.getD (py - m.state.v y % m.state.height) 0).toNat.testBit _) = true ↔ _
  simp only [Table.State.covers, Bool.and_eq_true, decide_eq_true_eq]
  constructor
  · rintro ⟨⟨⟨⟨hl, hr⟩, ht⟩, hb⟩, hset⟩
    rw [hbit (by omega)] at hset
    exact ⟨⟨⟨⟨⟨⟨hl, by omega⟩, by omega⟩, ht⟩, by omega⟩, by omega⟩, hset⟩
  · rintro ⟨⟨⟨⟨⟨⟨hl, hr⟩, hr'⟩, ht⟩, hb⟩, hb'⟩, hset⟩
    refine ⟨⟨⟨⟨hl, by omega⟩, ht⟩, by omega⟩, ?_⟩
    rwa [hbit (by omega)]

theorem draw_row (hp : m.pc.toNat + 2 < 65536) {x y n : Nibble}
    (h : (draw x y n).execute m.pastFetch = .ok o after) :
    o = .drew ∧ Row m.state (draw x y n) after.state := by
  rw [execute_draw] at h
  split at h <;> cases h
  rename_i sprite hs
  have hrows : m.spriteRows y n = .ok sprite := hs
  have hpixel : (m.display.draw (m.v.get x).toNat (m.v.get y).toNat sprite).1.pixel =
      fun px py => m.state.pixel px py ^^ m.state.covers x y n px py := by
    funext px py
    rw [Display.pixel_draw, flips_eq_covers hrows]
    rfl
  have herased : (m.display.draw (m.v.get x).toNat (m.v.get y).toNat sprite).2 = true ↔
      ∃ px py, m.state.covers x y n px py = true ∧ m.state.pixel px py = true := by
    rw [Display.draw_collides_iff]
    simp only [flips_eq_covers hrows]
    rfl
  refine ⟨rfl, .congr (.draw herased) ?_⟩
  rw [state_setFlag, state_setDisplay m.pastFetch (Display.draw_width ..) (Display.draw_height ..),
    state_pastFetch hp, ← hpixel]
  rfl

theorem keyInRegister_iff {x : Nibble} : m.keyInRegister x = true ↔ m.state.keyDown x := by
  unfold keyInRegister Nibble.ofByte? Table.State.keyDown
  by_cases h : (m.v.get x).toNat < 16
  · rw [dif_pos h]
    constructor
    · intro hd
      exact ⟨_, rfl, hd⟩
    · rintro ⟨k, hk, hd⟩
      rwa [← show k = ⟨(m.v.get x).toNat, h⟩ from Fin.ext hk]
  · rw [dif_neg h]
    simp only [Bool.false_eq_true, false_iff, not_exists, not_and]
    intro k hk
    change k.val = (m.v.get x).toNat at hk
    omega

theorem decimalDigits_getD (b : UInt8) (k : Nat) :
    ((decimalDigits b).getD k 0).toNat =
      if k = 0 then b.toNat / 100 else if k = 1 then b.toNat / 10 % 10
      else if k = 2 then b.toNat % 10 else 0 := by
  match k with
  | 0 => exact UInt8.toNat_div ..
  | 1 =>
    change (b / 10 % 10).toNat = _
    rw [UInt8.toNat_mod, UInt8.toNat_div]
    rfl
  | 2 => exact UInt8.toNat_mod ..
  | _ + 3 => rfl

theorem storeDecimal_row (hp : m.pc.toNat + 2 < 65536) {x : Nibble}
    (h : (storeDecimal x).execute m.pastFetch = .ok o after) :
    o = .advanced ∧ Row m.state (storeDecimal x) after.state := by
  rw [execute_storeDecimal] at h
  split at h <;> cases h
  rename_i memory hs
  refine ⟨rfl, .congr (@Row.storeDecimal _ _ (m.state.v x / 100) (m.state.v x / 10 % 10)
    (m.state.v x % 10) (Nat.mod_lt _ (by decide)) (Nat.mod_lt _ (by decide)) (by omega))
    (state_setMemory hp fun a => ?_)⟩
  rw [Memory.numberAt_splice hs, decimalDigits_getD]
  change (if m.state.index ≤ a ∧ a < m.state.index + 3 then
    if a - m.state.index = 0 then m.state.v x / 100
    else if a - m.state.index = 1 then m.state.v x / 10 % 10
    else if a - m.state.index = 2 then m.state.v x % 10 else 0 else m.state.memory a) = _
  split_ifs <;> first | rfl | omega

theorem length_savedRegisters (v : Registers) (x : Nibble) :
    (v.toList.take (x.val + 1)).length = x.val + 1 := by
  rw [List.length_take, Vector.length_toList]
  omega

theorem savedRegisters_getD (v : Registers) {x : Nibble} {k : Nat} (hk : k ≤ x.val) :
    (v.toList.take (x.val + 1)).getD k 0 = v.get (Nibble.low k) := by
  rw [List.getD_eq_getElem _ _ (by rw [length_savedRegisters]; omega), List.getElem_take,
    Vector.getElem_toList]
  exact congrArg v.get (Fin.ext (Nat.mod_eq_of_lt (by omega)).symm)

theorem saveRegisters_row (hp : m.pc.toNat + 2 < 65536) {x : Nibble}
    (h : (saveRegisters x).execute m.pastFetch = .ok o after) :
    o = .advanced ∧ Row m.state (saveRegisters x) after.state := by
  rw [execute_saveRegisters] at h
  split at h <;> cases h
  rename_i memory hs
  refine ⟨rfl, .congr .saveRegisters (state_setMemory hp fun a => ?_)⟩
  rw [Memory.numberAt_splice hs, length_savedRegisters]
  by_cases ha : m.state.index ≤ a ∧ a ≤ m.state.index + x.val
  · have hin : m.pastFetch.index.toNat ≤ a ∧ a < m.pastFetch.index.toNat + (x.val + 1) :=
      ⟨ha.1, Nat.lt_succ_of_le ha.2⟩
    rw [if_pos ha, if_pos hin, savedRegisters_getD _ (Nat.sub_le_of_le_add (by omega))]
    rfl
  · have hout : ¬(m.pastFetch.index.toNat ≤ a ∧ a < m.pastFetch.index.toNat + (x.val + 1)) :=
      fun hin => ha ⟨hin.1, Nat.le_of_lt_succ hin.2⟩
    rw [if_neg ha, if_neg hout]
    rfl

theorem restoreRegisters_row (hp : m.pc.toNat + 2 < 65536) {x : Nibble}
    (h : (restoreRegisters x).execute m.pastFetch = .ok o after) :
    o = .advanced ∧ Row m.state (restoreRegisters x) after.state := by
  rw [execute_restoreRegisters] at h
  split at h <;> cases h
  rename_i block hs
  have hlen := Memory.length_of_slice hs
  refine ⟨rfl, .congr .restoreRegisters ?_⟩
  rw [← state_pastFetch hp]
  refine congrArg (fun v => { m.pastFetch.state with v }) (funext fun r => ?_)
  change (overlay m.v 0 block)[r.val].toNat = _
  rw [getElem_overlay _ _ _ _ r.isLt]
  by_cases hr : r ≤ x
  · have hrx : r.val ≤ x.val := hr
    have hbyte := Memory.numberAt_of_slice hs (Nat.lt_succ_of_le hrx)
    rw [List.getD_eq_getElem _ _ (by omega)] at hbyte
    rw [dif_pos (by omega), if_pos hr]
    exact hbyte
  · have hrx : ¬r.val ≤ x.val := hr
    rw [dif_neg (by omega), if_neg hr]
    rfl

theorem addIndex_row (hp : m.pc.toNat + 2 < 65536) {x : Nibble}
    (h : (addIndex x).execute m.pastFetch = .ok o after) :
    o = .advanced ∧ Row m.state (addIndex x) after.state := by
  rw [execute_addIndex] at h
  dsimp only at h
  split at h <;> cases h
  rename_i hsum
  exact ⟨rfl, .congr .addIndex (state_setIndex hp hsum)⟩

/-- Past a fetch inside memory an execution that goes through ends in the row of its
instruction. -/
theorem execute_row (hpc : m.pc.toNat ≤ 4094) {i : Instruction}
    (h : i.execute m.pastFetch = .ok o after) : o = outcome i ∧ Row m.state i after.state := by
  have hp : m.pc.toNat + 2 < 65536 := by omega
  have hskip : m.pc.toNat + 4 < 65536 := by omega
  have hnext := state_pastFetch hp
  have hbyte (x : Nibble) : m.state.v x < 256 := (m.v.get x).toNat_lt
  cases i with
  | ret => exact ret_row h
  | call nnn => exact call_row hp h
  | alu x y op => exact alu_row hp h
  | draw x y n => exact draw_row hp h
  | addIndex x => exact addIndex_row hp h
  | storeDecimal x => exact storeDecimal_row hp h
  | saveRegisters x => exact saveRegisters_row hp h
  | restoreRegisters x => exact restoreRegisters_row hp h
  | clearScreen =>
    cases h
    have hblank : m.display.clear.pixel = fun _ _ => false := by
      funext px py
      exact Display.pixel_blank ..
    refine ⟨rfl, .congr .clearScreen ?_⟩
    rw [← hnext, ← hblank]
    exact state_setDisplay m.pastFetch rfl rfl
  | jump nnn =>
    cases h
    exact ⟨rfl, .congr .jump (state_jump m (by omega))⟩
  | jumpOffset nnn =>
    cases h
    have hsum : nnn.val + m.state.v 0 < 65536 := by
      have := hbyte 0
      omega
    exact ⟨rfl, .congr .jumpOffset (state_jump m hsum)⟩
  | skipEqByte x nn =>
    cases h
    exact ⟨rfl, .congr .skipEqByte ((state_skipIf hskip _).trans
      (congrArg _ (decide_eq_decide.mpr UInt8.toNat_inj.symm)))⟩
  | skipNeByte x nn =>
    cases h
    exact ⟨rfl, .congr .skipNeByte ((state_skipIf hskip _).trans
      (congrArg _ (decide_eq_decide.mpr (not_congr UInt8.toNat_inj.symm))))⟩
  | skipEqRegister x y =>
    cases h
    exact ⟨rfl, .congr .skipEqRegister ((state_skipIf hskip _).trans
      (congrArg _ (decide_eq_decide.mpr UInt8.toNat_inj.symm)))⟩
  | skipNeRegister x y =>
    cases h
    exact ⟨rfl, .congr .skipNeRegister ((state_skipIf hskip _).trans
      (congrArg _ (decide_eq_decide.mpr (not_congr UInt8.toNat_inj.symm))))⟩
  | skipKeyDown x =>
    cases h
    exact ⟨rfl, .congr (.skipKeyDown keyInRegister_iff) (state_skipIf hskip _)⟩
  | skipKeyUp x =>
    cases h
    have hup : (!m.keyInRegister x) = true ↔ ¬m.state.keyDown x := by
      rw [← keyInRegister_iff, Bool.not_eq_true', Bool.not_eq_true]
    exact ⟨rfl, .congr (.skipKeyUp hup) (state_skipIf hskip _)⟩
  | loadByte x nn =>
    cases h
    exact ⟨rfl, .congr .loadByte (state_set hp rfl)⟩
  | addByte x nn =>
    cases h
    exact ⟨rfl, .congr .addByte (state_set hp (UInt8.toNat_add ..))⟩
  | random x nn =>
    rw [execute_random] at h
    cases h
    refine ⟨rfl, .congr .random ?_⟩
    rw [state_setRegister, UInt8.toNat_and]
    exact congrArg (fun s : Table.State =>
      { s.set x (m.state.random.peek.toNat &&& nn.toNat) with random := m.state.random.advance })
      hnext
  | loadIndex nnn =>
    cases h
    exact ⟨rfl, .congr .loadIndex (state_setIndex hp (by omega))⟩
  | loadGlyph x =>
    cases h
    have hglyph : m.state.v x * Font.glyphSize < 65536 :=
      Nat.lt_of_lt_of_le (Nat.mul_lt_mul_of_pos_right (hbyte x) (by decide)) (by decide)
    refine ⟨rfl, .congr .loadGlyph ?_⟩
    rw [Nat.mul_comm]
    exact state_setIndex hp hglyph
  | readDelay x =>
    cases h
    exact ⟨rfl, .congr .readDelay (state_set hp rfl)⟩
  | awaitKey x =>
    cases h
    exact ⟨rfl, .congr .awaitKey (congrArg (fun s => { s with awaiting := some x }) hnext)⟩
  | setDelay x =>
    cases h
    exact ⟨rfl, .congr .setDelay (congrArg (fun s => { s with delay := m.state.v x }) hnext)⟩
  | setSound x =>
    cases h
    exact ⟨rfl, .congr .setSound (congrArg (fun s => { s with sound := m.state.v x }) hnext)⟩
  | unknown word =>
    rw [execute_unknown] at h
    split at h <;> cases h
    rename_i hignore
    exact ⟨rfl, .congr (.unknown hignore) hnext⟩

variable {cause : Fault}

/-- An execution that faults has a reason in the table. -/
theorem fails_of_execute {i : Instruction} (h : i.execute m.pastFetch = .error cause after) :
    Fails m.state i cause := by
  cases i with
  | ret =>
    rw [execute_ret] at h
    rcases m.pastFetch.stack.pop_cases with ⟨a, rest, -, hp⟩ | ⟨hs, hp⟩
    · rw [hp] at h
      cases h
    · rw [hp] at h
      cases h
      exact .ret (congrArg (List.map UInt16.toNat) hs)
  | call nnn =>
    rw [execute_call] at h
    rcases m.pastFetch.stack.push_cases m.pastFetch.pc with ⟨-, hp⟩ | ⟨hs, hp⟩
    · rw [hp] at h
      cases h
    · rw [hp] at h
      cases h
      exact .call (Nat.le_trans hs (Nat.le_of_eq (List.length_map _).symm))
  | draw x y n =>
    rw [execute_draw] at h
    split at h <;> cases h
    rename_i hs
    obtain ⟨hr, rfl⟩ := Memory.slice_eq_error.mp hs
    exact .access rfl hr
  | addIndex x =>
    rw [execute_addIndex] at h
    dsimp only at h
    split at h <;> cases h
    rename_i hsum
    exact .addIndex (Nat.not_lt.mp hsum)
  | storeDecimal x =>
    rw [execute_storeDecimal] at h
    split at h <;> cases h
    rename_i hs
    obtain ⟨hr, rfl⟩ := Memory.splice_eq_error.mp hs
    exact .access rfl hr
  | saveRegisters x =>
    rw [execute_saveRegisters] at h
    split at h <;> cases h
    rename_i hs
    obtain ⟨hr, rfl⟩ := Memory.splice_eq_error.mp hs
    rw [length_savedRegisters] at hr
    exact .access rfl hr
  | restoreRegisters x =>
    rw [execute_restoreRegisters] at h
    split at h <;> cases h
    rename_i hs
    obtain ⟨hr, rfl⟩ := Memory.slice_eq_error.mp hs
    exact .access rfl hr
  | unknown word =>
    rw [execute_unknown] at h
    split at h <;> cases h
    rename_i hfault
    exact .unknown hfault
  | alu x y op =>
    rw [execute_alu] at h
    cases h
  | _ => cases h

/-- Whatever has a reason in the table faults with it. -/
theorem execute_of_fails {i : Instruction} (h : Fails m.state i cause) :
    i.execute m.pastFetch = .error cause m.pastFetch := by
  cases h with
  | ret h =>
    rcases m.pastFetch.stack.pop_cases with ⟨a, rest, hs, -⟩ | ⟨-, hp⟩
    · cases hs.symm.trans (List.map_eq_nil_iff.mp h)
    · rw [execute_ret, hp]
  | call h =>
    rcases m.pastFetch.stack.push_cases m.pastFetch.pc with ⟨hs, -⟩ | ⟨-, hp⟩
    · have hle : m.stack.depth ≤ m.stack.entries.length :=
        Nat.le_trans h (Nat.le_of_eq (List.length_map _))
      exact absurd hs (Nat.not_lt.mpr hle)
    · rw [execute_call, hp]
      rfl
  | addIndex h =>
    rw [execute_addIndex]
    exact if_neg (Nat.not_lt.mpr h)
  | @access i len hi h =>
    cases i with
    | draw x y n =>
      cases hi
      have hs : m.pastFetch.spriteRows y n = _ := Memory.slice_eq_error.mpr ⟨h, rfl⟩
      rw [execute_draw, hs]
      rfl
    | storeDecimal x =>
      cases hi
      rw [execute_storeDecimal, Memory.splice_eq_error.mpr ⟨h, rfl⟩]
      rfl
    | saveRegisters x =>
      cases hi
      have hr : 4096 < m.pastFetch.index.toNat +
          (m.pastFetch.v.toList.take (x.val + 1)).length := by
        rwa [length_savedRegisters]
      rw [execute_saveRegisters, Memory.splice_eq_error.mpr ⟨hr, rfl⟩]
      rfl
    | restoreRegisters x =>
      cases hi
      have hr : 4096 < m.pastFetch.index.toNat + (x.val + 1) := h
      rw [execute_restoreRegisters, Memory.slice_eq_error.mpr ⟨hr, rfl⟩]
      rfl
    | _ => cases hi
  | unknown h =>
    rw [execute_unknown, show m.pastFetch.config.unknownOpcodes = _ from h]

end Instruction

end Chip8
