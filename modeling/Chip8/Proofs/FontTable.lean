import Chip8.Proofs.Reset
import Chip8.Proofs.VisibleRows

/-!
The font table. No part of memory is protected: a program can point the index register at the
glyphs and store over them. But it takes a store to do so. A byte of the table stays that of the
font loaded last until an instruction stores to it, and a glyph whose bytes are still those of the
font is the one that is drawn.
-/

namespace Chip8

/-- How many bytes from the index register on an instruction stores. -/
def Instruction.stores : Instruction → Nat
  | .storeDecimal _ => 3
  | .saveRegisters x => x.val + 1
  | _ => 0

/-- The five rows of a digit. -/
def Font.glyph (font : Font) (k : Nibble) : List UInt8 :=
  (font.extract (glyphSize * k.val) (glyphSize * k.val + glyphSize)).toList

theorem Font.length_glyph (font : Font) (k : Nibble) : (font.glyph k).length = glyphSize := by
  have hk := k.isLt
  have hsize : glyphSize = 5 := rfl
  rw [glyph, Vector.length_toList, hsize]
  omega

theorem Font.getElem_glyph (font : Font) {k : Nibble} {r : Nat} (hr : r < 5)
    (h : r < (font.glyph k).length) :
    (font.glyph k)[r] = font.get ⟨5 * k.val + r, by omega⟩ := by
  simp only [glyph, Vector.getElem_toList, Vector.getElem_extract]
  rfl

theorem Memory.read_eq_of_numberAt {m m' : Memory} {a : Nat} (ha : a < 4096)
    (h : m'.numberAt a = m.numberAt a) : m'.read a = m.read a := by
  rw [numberAt, numberAt, read_of_lt _ ha, read_of_lt _ ha] at h
  rw [read_of_lt _ ha, read_of_lt _ ha, UInt8.toNat_inj.mp h]

namespace Table

variable {s s' : State} {i : Instruction} {a : Nat}

/-- Only the bytes that an instruction stores to change. -/
theorem Row.memory_eq (h : Row s i s') (ha : ¬(s.index ≤ a ∧ a < s.index + i.stores)) :
    s'.memory a = s.memory a := by
  cases h with
  | storeDecimal =>
    have hout : ¬(s.index ≤ a ∧ a < s.index + 3) := ha
    change (if a = s.index then _ else if a = s.index + 1 then _
      else if a = s.index + 2 then _ else s.memory a) = _
    rw [if_neg (by omega), if_neg (by omega), if_neg (by omega)]
  | @saveRegisters x =>
    have hout : ¬(s.index ≤ a ∧ a < s.index + (x.val + 1)) := ha
    change (if s.index ≤ a ∧ a ≤ s.index + x.val then _ else s.memory a) = _
    rw [if_neg (by omega)]
  | _ => rfl

end Table

namespace HostAction

/-- What a host does between two steps while a program runs. -/
def BetweenSteps (a : HostAction) : Prop := a.InPlay ∧ a ≠ .step

/-- An action that leaves the whole font table as it was loaded. -/
def LaysFont : HostAction → Prop
  | .loadFont _ | .reset => True
  | _ => False

end HostAction

namespace Machine

/-- The next step stores to address `a`. -/
def StoresTo (m : Machine) (a : Nat) : Prop :=
  ∃ i, m.Executes i ∧ m.index.toNat ≤ a ∧ a < m.index.toNat + i.stores

/-- An action that does not store to address `a`. -/
def Spares (a : Nat) (m : Machine) (x : HostAction) : Prop := x = .step → ¬m.StoresTo a

/-- Byte `a` of the table is that of the font loaded last. -/
def Intact (m : Machine) (a : Fin 80) : Prop := m.memory.read a = .ok (m.font.get a)

variable {config : Config} {seed : UInt64} {fresh m : Machine} {a : Fin 80} {x y z n k : Nibble}
  {before after between : List HostAction}

theorem read_step {a : Nat} (ha : a < 4096) (h : ¬m.StoresTo a) :
    m.step.machine.memory.read a = m.memory.read a := by
  rcases m.step_row with ⟨hs, -⟩ | ⟨i, hi, -, hrow⟩
  · rw [hs]
  · have hout : ¬(m.state.index ≤ a ∧ a < m.state.index + i.stores) := fun hin => h ⟨i, hi, hin⟩
    exact Memory.read_eq_of_numberAt ha (hrow.memory_eq hout)

/-- The glyphs lie below every program. -/
theorem read_overlay_font (bytes : Vector UInt8 4096) (font : Font) (a : Fin 80) :
    (⟨overlay bytes 0 font.toList⟩ : Memory).read a = .ok (font.get a) := by
  have hlength : font.toList.length = 80 := Vector.length_toList
  have ha := a.isLt
  rw [Memory.read_of_lt _ (by omega), getElem_overlay, dif_pos (by omega)]
  rfl

theorem read_overlay_program (bytes : Vector UInt8 4096) (rom : List UInt8) (a : Fin 80) :
    (⟨overlay bytes Memory.programStart rom⟩ : Memory).read a = (⟨bytes⟩ : Memory).read a := by
  have hstart : Memory.programStart = 0x200 := rfl
  have ha := a.isLt
  rw [Memory.read_of_lt _ (by omega), Memory.read_of_lt _ (by omega), getElem_overlay,
    dif_neg (by omega)]

theorem intact_powerOn (config : Config) (seed : UInt64) (a : Fin 80) :
    (powerOn config seed).Intact a := read_overlay_font ..

theorem intact_of_laysFont {x : HostAction} (h : x.LaysFont) (m : Machine) (a : Fin 80) :
    (m.act x).Intact a := by
  cases x with
  | loadFont font => exact read_overlay_font ..
  | reset => exact (read_overlay_program ..).trans (read_overlay_font ..)
  | step | setKey | tick | loadRom | assign => cases h

theorem Intact.act (h : m.Intact a) {x : HostAction} (hx : m.Spares a x) : (m.act x).Intact a := by
  have ha := a.isLt
  cases x with
  | step =>
    have hfont : m.step.machine.font = m.font := m.remembers_step.font_eq
    rw [Intact, Machine.act, hfont, read_step (by omega) (hx rfl)]
    exact h
  | setKey k pressed => rcases m.setKey_cases k pressed with hs | ⟨r, -, hs⟩ <;> rwa [Machine.act, hs]
  | loadRom rom =>
    rcases m.act_loadRom rom with hs | ⟨-, hs⟩ <;> rw [hs]
    · exact h
    · exact (read_overlay_program ..).trans h
  | tick => exact h
  | loadFont font => exact intact_of_laysFont (x := .loadFont font) trivial m a
  | reset => exact intact_of_laysFont (x := .reset) trivial m a
  | assign target value =>
    rcases m.act_assign target value with hs | hs
    · rwa [hs]
    · rwa [(Debugger.of_setTarget hs).2]

/-- From where the whole table was laid, its bytes last until they are stored to. -/
theorem Along.intact (hb : ∀ x ∈ before.getLast?, x.LaysFont) (hfresh : fresh.Intact a)
    (hh : Along (Spares a) (fresh.acts before) after) :
    ((fresh.acts before).acts after).Intact a := by
  have hlaid : (fresh.acts before).Intact a := by
    induction before using List.reverseRecOn with
    | nil => exact hfresh
    | append_singleton before x _ =>
      rw [acts_concat]
      exact intact_of_laysFont (hb x (by simp)) _ a
  exact hh.preserves (P := fun m => m.Intact a) hlaid fun _ _ hm hx => hm.act hx

theorem index_of_loadGlyph (h : m.Executes (.loadGlyph x)) (hk : (m.v.get x).toNat = k.val) :
    m.step.machine.index.toNat = 5 * k.val ∧ m.step.machine.memory = m.memory := by
  have hstep : m.step = ⟨.ok .advanced,
      { m.pastFetch with index := UInt16.ofNat ((m.v.get x).toNat * Font.glyphSize) }⟩ :=
    h.step_ok rfl
  have hlt := k.isLt
  rw [hstep, hk]
  refine ⟨?_, rfl⟩
  change (UInt16.ofNat (k.val * 5)).toNat = 5 * k.val
  rw [UInt16.toNat_ofNat_of_lt' (by change _ < 65536; omega), Nat.mul_comm]

/-- Ticks and keys move neither memory nor the index register. -/
theorem acts_between (h : ∀ x ∈ between, x.BetweenSteps) :
    (m.acts between).index = m.index ∧ (m.acts between).memory = m.memory := by
  apply (along_const.mpr h).preserves (P := fun n => n.index = m.index ∧ n.memory = m.memory)
  · exact ⟨rfl, rfl⟩
  · rintro n x hn ⟨hplay, hstep⟩
    cases x with
    | step => exact absurd rfl hstep
    | tick => exact hn
    | setKey k pressed => rcases n.setKey_cases k pressed with hs | ⟨r, -, hs⟩ <;> rwa [act, hs]
    | loadRom | loadFont | reset | assign => cases hplay

/-- The rows of a draw that starts at digit `k`: those of its glyph, and past them what comes after
it in memory. -/
def rowsFrom (m : Machine) (font : Font) (k n : Nibble) : List UInt8 :=
  (font.glyph k).take n.val ++ (m.memory.bytes.extract (5 * k.val + 5) (5 * k.val + n.val)).toList

theorem length_rowsFrom (m : Machine) (font : Font) (k n : Nibble) :
    (m.rowsFrom font k n).length = n.val := by
  have hk := k.isLt
  have hn := n.isLt
  have hsize : Font.glyphSize = 5 := rfl
  rw [rowsFrom, List.length_append, List.length_take, font.length_glyph, Vector.length_toList]
  omega

/-- While the bytes of the glyph are those of the font, these are the rows that are drawn, as far
as they are on the screen. -/
theorem spriteRows_glyph {font : Font} (hindex : m.index.toNat = 5 * k.val)
    (hbytes : ∀ a : Fin 80, 5 * k.val ≤ a.val → a.val < 5 * k.val + 5 →
      m.memory.read a = .ok (font.get a)) :
    m.spriteRows y n = .ok ((m.rowsFrom font k n).take
      (m.display.visibleRows (m.v.get y).toNat n.val)) := by
  have hk := k.isLt
  have hn := n.isLt
  have hrows : m.display.visibleRows (m.v.get y).toNat n.val ≤ n.val := Nat.min_le_left ..
  have hlength := m.length_rowsFrom font k n
  have hglyph := font.length_glyph k
  have hsize : Font.glyphSize = 5 := rfl
  unfold spriteRows
  generalize m.display.visibleRows (m.v.get y).toNat n.val = rows at hrows ⊢
  rw [hindex]
  have hroom : 5 * k.val + rows ≤ 4096 := by omega
  have hslice := m.memory.slice_eq_ok hroom
  have hblock := Memory.length_of_slice hslice
  rw [hslice]
  congr 1
  apply List.ext_getElem
  · rw [hblock, List.length_take]
    omega
  · intro r hr hr'
    rw [List.getElem_take]
    unfold rowsFrom
    have hread := Memory.read_of_slice hslice (k := r) (by omega)
    by_cases hin : r < 5
    · have hbyte := hbytes ⟨5 * k.val + r, by omega⟩ (Nat.le_add_right ..) (by dsimp only; omega)
      rw [List.getElem_append_left (by rw [List.length_take]; omega), List.getElem_take,
        font.getElem_glyph hin]
      rw [hbyte, List.getD_eq_getElem _ _ hr] at hread
      exact (Except.ok.inj hread).symm
    · rw [List.getElem_append_right (by rw [List.length_take]; omega)]
      rw [Memory.read_of_lt _ (by omega), List.getD_eq_getElem _ _ hr] at hread
      simp only [Vector.getElem_toList, Vector.getElem_extract, List.length_take, hglyph, hsize]
      congr 1
      omega

theorem step_draw_glyph {font : Font} (h : m.Executes (.draw x y n))
    (hindex : m.index.toNat = 5 * k.val)
    (hbytes : ∀ a : Fin 80, 5 * k.val ≤ a.val → a.val < 5 * k.val + 5 →
      m.memory.read a = .ok (font.get a)) :
    m.step = ⟨.ok .drew,
      let drawn := m.display.draw (m.v.get x).toNat (m.v.get y).toNat (m.rowsFrom font k n)
      { m.pastFetch with display := drawn.1 }.setFlag drawn.2⟩ := by
  have hdraw := m.display.draw_take_visible (m.v.get x).toNat (m.v.get y).toNat
    (m.rowsFrom font k n)
  rw [m.length_rowsFrom] at hdraw
  rw [step_draw h (spriteRows_glyph hindex hbytes), drawn_congr (m := m.pastFetch) hdraw]
  rfl

/-- A byte of the table that no instruction has stored to, since the table was laid whole, is that
of the font loaded last. Where the five bytes of a digit are, pointing at the digit and drawing
draws its glyph. -/
theorem font_lasts_until_stored_to (h : Machine.build config seed = .ok fresh)
    (hb : ∀ x ∈ before.getLast?, x.LaysFont) (after : List HostAction) :
    let laid := fresh.acts before
    let now := laid.acts after
    let font := lastFont (before ++ after)
    (∀ a : Fin 80, Along (Spares a) laid after → now.memory.read a = .ok (font.get a)) ∧
    ∀ x k, now.Executes (.loadGlyph x) → (now.v.get x).toNat = k.val →
      (∀ a : Fin 80, 5 * k.val ≤ a.val → a.val < 5 * k.val + 5 → Along (Spares a) laid after) →
      ∀ between, (∀ x ∈ between, HostAction.BetweenSteps x) →
        let pointing := now.step.machine.acts between
        ∀ y z n, pointing.Executes (.draw y z n) →
          pointing.step = ⟨.ok .drew,
            let drawn := pointing.display.draw (pointing.v.get y).toNat (pointing.v.get z).toNat
              (pointing.rowsFrom font k n)
            { pointing.pastFetch with display := drawn.1 }.setFlag drawn.2⟩ := by
  intro laid now font
  have hloaded : now.font = font := by
    obtain ⟨-, -, rfl⟩ := of_build h
    have hfresh : (powerOn config seed).font = Font.standard := rfl
    have hremembers := remembers_acts hfresh rfl (before ++ after)
    have hnow : (powerOn config seed).acts (before ++ after) = now := List.foldl_append ..
    rw [← hnow]
    exact hremembers.font_eq
  have hkept : ∀ a : Fin 80, Along (Spares a) laid after → now.memory.read a = .ok (font.get a) := by
    intro a ha
    obtain ⟨-, -, rfl⟩ := of_build h
    have hintact := Along.intact hb (intact_powerOn config seed a) ha
    rwa [Intact, hloaded] at hintact
  refine ⟨hkept, ?_⟩
  intro x k hglyph hk hspared between hbetween pointing y z n hdraw
  obtain ⟨hindex, hmemory⟩ := index_of_loadGlyph hglyph hk
  obtain ⟨hindex', hmemory'⟩ := acts_between (m := now.step.machine) hbetween
  apply step_draw_glyph hdraw
  · rw [hindex', hindex]
  · intro a hlow hhigh
    rw [hmemory', hmemory]
    exact hkept a (hspared a hlow hhigh)

theorem display_setFlag (m : Machine) (on : Bool) : (m.setFlag on).display = m.display := rfl

theorem spares_of_executes {i : Instruction} {a : Nat} (h : m.Executes i)
    (ha : ¬(m.index.toNat ≤ a ∧ a < m.index.toNat + i.stores)) : m.Spares a .step := by
  rintro - ⟨j, hj, hin⟩
  obtain rfl := h.unique hj
  exact ha hin

/-- V0 is set to 1 and stored over the first row of digit 0. Then digit 1 is drawn. -/
def nextToDigit : List UInt8 := [0x60, 0x01, 0xF0, 0x55, 0xF0, 0x29, 0xD1, 0x15]

/-- The glyph of 1 is whole. -/
theorem font_lasts_until_stored_to_nextToDigit :
    let now := (powerOn {} 0).acts [.loadRom nextToDigit, .step, .step]
    let pointing := now.step.machine.acts [.tick, .setKey 3 true]
    now.Executes (.loadGlyph 0) ∧ pointing.Executes (.draw 1 1 5) ∧
      now.memory.read 0 = .ok 0x01 ∧ now.memory.read 9 = .ok 0x70 ∧
      pointing.step.machine.display =
        (pointing.display.draw 0 0 [0x20, 0x60, 0x20, 0x20, 0x70]).1 := by
  intro now pointing
  have hspared : ∀ a : Fin 80, 5 * (1 : Nibble).val ≤ a.val → a.val < 5 * (1 : Nibble).val + 5 →
      Along (Spares a) (powerOn {} 0) [.loadRom nextToDigit, .step, .step] := by
    intro a hlow _
    have hset : ((powerOn {} 0).act (.loadRom nextToDigit)).Executes (.loadByte 0 1) :=
      ⟨rfl, rfl, 0x6001, by decide +kernel, by decide⟩
    obtain ⟨hf, hw, hword, hindex⟩ :
        let stored := ((powerOn {} 0).act (.loadRom nextToDigit)).act .step
        stored.fault = none ∧ stored.awaiting = none ∧ stored.nextWord = .ok 0xF055 ∧
          stored.index.toNat = 0 := by decide +kernel
    have hstore : (((powerOn {} 0).act (.loadRom nextToDigit)).act .step).Executes
        (.saveRegisters 0) := ⟨hf, hw, 0xF055, hword, by decide⟩
    simp only [Along, and_true]
    refine ⟨?_, spares_of_executes hset ?_, spares_of_executes hstore ?_⟩
    · intro hstep
      cases hstep
    · simp only [Instruction.stores]
      omega
    · rw [hindex]
      simp only [Instruction.stores]
      have hone : (1 : Nibble).val = 1 := rfl
      have hzero : (0 : Nibble).val = 0 := rfl
      omega
  obtain ⟨hf, hw, hword, hdigit, hstored⟩ : now.fault = none ∧ now.awaiting = none ∧
      now.nextWord = .ok 0xF029 ∧ (now.v.get 0).toNat = (1 : Nibble).val ∧
      now.memory.read 0 = .ok 0x01 := by decide +kernel
  have hglyph : now.Executes (.loadGlyph 0) := ⟨hf, hw, 0xF029, hword, by decide⟩
  obtain ⟨hf', hw', hword', hcorner, hrows⟩ : pointing.fault = none ∧ pointing.awaiting = none ∧
      pointing.nextWord = .ok 0xD115 ∧ (pointing.v.get 1).toNat = 0 ∧
      pointing.rowsFrom Font.standard 1 5 = [0x20, 0x60, 0x20, 0x20, 0x70] := by decide +kernel
  have hdraw : pointing.Executes (.draw 1 1 5) := ⟨hf', hw', 0xD115, hword', by decide⟩
  have hbetween : ∀ x ∈ [HostAction.tick, .setKey 3 true], x.BetweenSteps := by
    simp [HostAction.BetweenSteps, HostAction.InPlay]
  have hbuild : Machine.build {} 0 = .ok (powerOn {} 0) := rfl
  have hfont : lastFont ([] ++ [.loadRom nextToDigit, .step, .step]) = Font.standard := rfl
  have hbefore : ∀ x ∈ ([] : List HostAction).getLast?, x.LaysFont := by simp
  obtain ⟨hbytes, hdraws⟩ := font_lasts_until_stored_to hbuild hbefore
    [.loadRom nextToDigit, .step, .step]
  have hstep := hdraws 0 1 hglyph hdigit hspared _ hbetween 1 1 5 hdraw
  have hnine := hbytes 9 (hspared 9 (by decide) (by decide))
  refine ⟨hglyph, hdraw, hstored, hnine, ?_⟩
  rw [acts_nil, hfont] at hstep
  change pointing.step = _ at hstep
  rw [hstep, hrows, hcorner, display_setFlag]

/-- I is set to 0, V0 to 0xAA, and V0 is stored. -/
def overDigitZero : List UInt8 := [0xA0, 0x00, 0x60, 0xAA, 0xF0, 0x55]

/-- Programs can overwrite the font: three steps, without a fault. -/
theorem not_font_kept : ¬∀ (config : Config) (seed : UInt64) (fresh : Machine) (rom : List UInt8)
    (history : List HostAction), Machine.build config seed = .ok fresh →
    (∀ x ∈ history, x.InPlay) → ∀ a : Fin 80,
      ((fresh.act (.loadRom rom)).acts history).memory.read a = .ok (Font.standard.get a) := by
  intro hkept
  have hbuild : Machine.build {} 0 = .ok (powerOn {} 0) := rfl
  have hplay : ∀ x ∈ List.replicate 3 HostAction.step, x.InPlay := by simp [HostAction.InPlay]
  have hread := hkept {} 0 _ overDigitZero _ hbuild hplay 0
  have hstored : (((powerOn {} 0).act (.loadRom overDigitZero)).acts
      (List.replicate 3 .step)).memory.read 0 = .ok 0xAA := by decide +kernel
  have hsame := Except.ok.inj (hstored.symm.trans hread)
  exact absurd hsame (by decide)

end Machine

end Chip8
