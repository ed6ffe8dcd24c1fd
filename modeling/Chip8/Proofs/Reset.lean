import Mathlib.Data.List.Induction
import Chip8.Proofs.History

/-!
A reset is a fresh start. Of all that has happened to a machine three things outlast a reset: the
font loaded last, the program accepted last, and how many random bytes have been drawn. The rest is
that of a machine just built.
-/

namespace Chip8

namespace HostAction

def font? : HostAction → Option Font
  | .loadFont font => some font
  | _ => none

/-- The program that an action loads. One that does not fit is not loaded. -/
def rom? : HostAction → Option (List UInt8)
  | .loadRom rom => if rom.length ≤ Memory.programCapacity then some rom else none
  | _ => none

end HostAction

/-- The font loaded last, the standard one if none was. -/
def lastFont (history : List HostAction) : Font :=
  (history.filterMap HostAction.font?).getLast?.getD Font.standard

/-- The program loaded last. -/
def lastRom (history : List HostAction) : Option (List UInt8) :=
  (history.filterMap HostAction.rom?).getLast?

theorem lastFont_concat (history : List HostAction) (a : HostAction) :
    lastFont (history ++ [a]) = a.font?.getD (lastFont history) := by
  unfold lastFont
  rcases h : a.font? with _ | font <;> simp [h]

theorem lastRom_concat (history : List HostAction) (a : HostAction) :
    lastRom (history ++ [a]) = a.rom?.or (lastRom history) := by
  unfold lastRom
  rcases h : a.rom? with _ | rom <;> simp [h]

theorem length_of_lastRom {history : List HostAction} {rom : List UInt8}
    (h : lastRom history = some rom) : rom.length ≤ Memory.programCapacity := by
  obtain ⟨a, -, ha⟩ := List.mem_filterMap.mp (List.mem_of_getLast? h)
  cases a with
  | loadRom rom' =>
    unfold HostAction.rom? at ha
    dsimp only at ha
    split at ha <;> cases ha
    assumption
  | _ => cases ha

/-- What stands at an address of memory once a font and a program are loaded. -/
def loadedByte (font : Font) (rom : List UInt8) (a : Nat) : UInt8 :=
  if h : a < 80 then font[a]
  else if Memory.programStart ≤ a then rom.getD (a - Memory.programStart) 0
  else 0

theorem getElem_loaded (font : Font) (rom : List UInt8) {a : Nat} (ha : a < 4096) :
    (overlay (overlay Memory.zero.bytes 0 font.toList) Memory.programStart rom)[a] =
      loadedByte font rom a := by
  have hstart : Memory.programStart = 0x200 := rfl
  have hfont : font.toList.length = 80 := Vector.length_toList
  rw [getElem_overlay, getElem_overlay, loadedByte]
  by_cases hlow : a < 80
  · rw [dif_neg (by omega), dif_pos (by omega), dif_pos hlow]
    rfl
  · rw [dif_neg hlow]
    by_cases hin : Memory.programStart ≤ a ∧ a < Memory.programStart + rom.length
    · rw [dif_pos hin, if_pos hin.1, List.getD_eq_getElem _ _ (by omega)]
    · have hzero : Memory.zero.bytes[a] = 0 := Vector.getElem_replicate ..
      rw [dif_neg hin, dif_neg (by omega), hzero]
      split
      · rw [List.getD_eq_default _ _ (by omega)]
      · rfl

namespace Machine

/-- Loads a font, and then a program if there is one. -/
def equip (m : Machine) (font : Font) : Option (List UInt8) → Except RomTooLarge Machine
  | none => .ok (m.loadFont font)
  | some rom => (m.loadFont font).loadRom rom

theorem loadRom_of_le (m : Machine) {rom : List UInt8}
    (h : rom.length ≤ Memory.programCapacity) : m.loadRom rom = .ok { m with
      memory := ⟨overlay m.memory.bytes Memory.programStart rom⟩, rom, pc := programStart } := by
  rw [loadRom]
  rcases writeRom_cases rom m with ⟨hlen, -⟩ | ⟨-, hw⟩
  · exact absurd h (Nat.not_le.mpr hlen)
  · rw [hw]

/-- A machine of the make of another, with a font and a program last loaded. -/
structure Remembers (origin : Machine) (font : Font) (rom : List UInt8) (m : Machine) : Prop where
  config_eq : m.config = origin.config
  width_eq : m.display.width = origin.display.width
  height_eq : m.display.height = origin.display.height
  depth_eq : m.stack.depth = origin.stack.depth
  seed_eq : m.random.seed = origin.random.seed
  font_eq : m.font = font
  rom_eq : m.rom = rom

variable {config : Config} {fresh m : Machine} {seed : UInt64}

theorem remembers_step (m : Machine) : Remembers m m.font m.rom m.step.machine := by
  rcases step_cases m with ⟨cause, -, hs⟩ | ⟨r, -, -, hs⟩ | ⟨o, after, -, -, hn, hs⟩ |
      ⟨cause, after, -, -, -, hs⟩ <;> rw [hs]
  · exact ⟨rfl, rfl, rfl, rfl, rfl, rfl, rfl⟩
  · exact ⟨rfl, rfl, rfl, rfl, rfl, rfl, rfl⟩
  · obtain ⟨word, -, -, -, hrow⟩ := row_of_next hn
    obtain ⟨hconfig, hfont, hrom, hwidth, hheight, hdepth, -⟩ := hrow.frame
    exact ⟨hconfig, hwidth, hheight, hdepth, hrow.seed_eq, hfont, hrom⟩
  · exact ⟨rfl, rfl, rfl, rfl, rfl, rfl, rfl⟩

/-- Only a load changes what is loaded. -/
theorem remembers_act (m : Machine) (a : HostAction) :
    Remembers m (a.font?.getD m.font) (a.rom?.getD m.rom) (m.act a) := by
  cases a with
  | step => exact m.remembers_step
  | setKey k pressed =>
    rcases m.setKey_cases k pressed with hs | ⟨r, -, hs⟩ <;> rw [act, hs] <;>
      exact ⟨rfl, rfl, rfl, rfl, rfl, rfl, rfl⟩
  | loadRom rom =>
    rcases writeRom_cases rom m with ⟨hlen, hw⟩ | ⟨hlen, hw⟩
    · have hrom : (HostAction.loadRom rom).rom? = none := if_neg (Nat.not_le.mpr hlen)
      rw [act, hw, hrom]
      exact ⟨rfl, rfl, rfl, rfl, rfl, rfl, rfl⟩
    · have hrom : (HostAction.loadRom rom).rom? = some rom := if_pos hlen
      rw [act, hw, hrom]
      exact ⟨rfl, rfl, rfl, rfl, rfl, rfl, rfl⟩
  | tick | loadFont | reset => exact ⟨rfl, rfl, rfl, rfl, rfl, rfl, rfl⟩
  | assign target value =>
    rcases m.act_assign target value with hs | hs
    · rw [hs]
      exact ⟨rfl, rfl, rfl, rfl, rfl, rfl, rfl⟩
    · rw [(Debugger.of_setTarget hs).2]
      exact ⟨rfl, rfl, rfl, rfl, rfl, rfl, rfl⟩

theorem remembers_acts (hfont : fresh.font = Font.standard) (hrom : fresh.rom = [])
    (history : List HostAction) : Remembers fresh (lastFont history)
      ((lastRom history).getD []) (fresh.acts history) := by
  induction history using List.reverseRecOn with
  | nil => exact ⟨rfl, rfl, rfl, rfl, rfl, hfont, hrom⟩
  | append_singleton history a ih =>
    have h := (fresh.acts history).remembers_act a
    rw [acts_concat]
    exact
      { config_eq := h.config_eq.trans ih.config_eq
        width_eq := h.width_eq.trans ih.width_eq
        height_eq := h.height_eq.trans ih.height_eq
        depth_eq := h.depth_eq.trans ih.depth_eq
        seed_eq := h.seed_eq.trans ih.seed_eq
        font_eq := by rw [h.font_eq, ih.font_eq, lastFont_concat]
        rom_eq := by
          rw [h.rom_eq, ih.rom_eq, lastRom_concat]
          cases a.rom? <;> rfl }

theorem loadFont_powerOn (config : Config) (seed : UInt64) (font : Font) :
    (powerOn config seed).loadFont font = { powerOn config seed with
      font := font, memory := ⟨overlay Memory.zero.bytes 0 font.toList⟩ } := by
  have hbytes : overlay (powerOn config seed).memory.bytes 0 font.toList =
      overlay Memory.zero.bytes 0 font.toList :=
    overlay_overlay _ 0 (by rw [Vector.length_toList, Vector.length_toList])
  exact congrArg (fun bytes => { powerOn config seed with font := font, memory := ⟨bytes⟩ }) hbytes

/-- A machine just built that is given the font and the program has the memory of a reset. -/
theorem equip_powerOn (config : Config) (seed : UInt64) (font : Font)
    {rom? : Option (List UInt8)} (h : ∀ rom, rom? = some rom → rom.length ≤ Memory.programCapacity) :
    (powerOn config seed).equip font rom? = .ok { powerOn config seed with
      font := font, rom := rom?.getD []
      memory := ⟨overlay (overlay Memory.zero.bytes 0 font.toList) Memory.programStart
        (rom?.getD [])⟩ } := by
  cases rom? with
  | none => rw [equip, loadFont_powerOn]; rfl
  | some rom => rw [equip, loadRom_of_le _ (h rom rfl), loadFont_powerOn]; rfl

/-- Of the machine that is reset only its make, its font, its program and its place in the random
bytes count. -/
theorem Remembers.reset_eq {font : Font} {rom : List UInt8}
    (h : Remembers (powerOn config seed) font rom m) :
    m.reset = { powerOn config seed with
      font, rom
      memory := ⟨overlay (overlay Memory.zero.bytes 0 font.toList) Memory.programStart rom⟩
      random := { (powerOn config seed).random with position := m.random.position } } := by
  obtain ⟨hconfig, hwidth, hheight, hdepth, hseed, rfl, rfl⟩ := h
  have hdisplay : m.display.clear = (powerOn config seed).display := by
    change Display.blank m.display.width m.display.height = _
    rw [hwidth, hheight]
    rfl
  have hstack : m.stack.clear = (powerOn config seed).stack := by
    change CallStack.empty m.stack.depth = _
    rw [hdepth]
    rfl
  have hrandom : m.random =
      { (powerOn config seed).random with position := m.random.position } :=
    congrArg (fun seed => (⟨seed, m.random.position⟩ : RandomStream)) hseed
  exact Machine.ext hconfig rfl rfl rfl hdisplay rfl rfl rfl hstack rfl rfl rfl rfl rfl hrandom

/-- A reset makes of any machine what building, the font loaded last and the program loaded last
make of it, but for the random bytes drawn. So no byte outlasts it that is not of that font or that
program, and no key, fault or wait; and a second reset changes nothing. -/
theorem reset_eq_equip (h : Machine.build config seed = .ok fresh) (history : List HostAction) :
    let m := fresh.acts history
    (∃ equipped, fresh.equip (lastFont history) (lastRom history) = .ok equipped ∧
      m.reset = { equipped with
        random := { equipped.random with position := m.random.position } }) ∧
    (∀ a, a < 4096 → m.reset.memory.read a =
      .ok (loadedByte (lastFont history) ((lastRom history).getD []) a)) ∧
    (∀ k, m.reset.keypad.isDown k = false) ∧ m.reset.fault = none ∧ m.reset.awaiting = none ∧
    m.reset.reset = m.reset := by
  obtain ⟨-, -, rfl⟩ := of_build h
  have hremembers : Remembers (powerOn config seed) (lastFont history)
      ((lastRom history).getD []) ((powerOn config seed).acts history) :=
    remembers_acts rfl rfl history
  have hlength : ∀ rom, lastRom history = some rom → rom.length ≤ Memory.programCapacity :=
    fun _ => length_of_lastRom
  have hequip := equip_powerOn config seed (lastFont history) hlength
  refine ⟨⟨_, hequip, hremembers.reset_eq⟩, ?_, Keypad.isDown_idle, rfl, rfl, rfl⟩
  intro a ha
  rw [hremembers.reset_eq, Memory.read_of_lt _ ha]
  exact congrArg Except.ok (getElem_loaded _ _ ha)

/-- A long program, another font, a short program that waits for a key while one is held, and a
program that does not fit. -/
def restless : List HostAction :=
  [.loadRom [0x00, 0xE0, 0x00, 0xE0, 0x12, 0x00], .loadFont (Vector.replicate 80 0xAA),
    .loadRom [0xF0, 0x0A], .setKey 1 true, .step, .loadRom (List.replicate 3585 0x11)]

/-- The short program is back, and nothing of the long one. -/
theorem reset_eq_equip_restless :
    let m := (powerOn {} 0).acts restless
    (∃ equipped, (powerOn {} 0).equip (Vector.replicate 80 0xAA) (some [0xF0, 0x0A]) =
        .ok equipped ∧
      m.reset = { equipped with
        random := { equipped.random with position := m.random.position } }) ∧
    (m.awaiting = some 0 ∧ m.keypad.isDown 1 = true ∧ m.memory.read 0x204 = .ok 0x12) ∧
    m.reset.awaiting = none ∧ m.reset.keypad.isDown 1 = false ∧
    m.reset.memory.read 0x201 = .ok 0x0A ∧ m.reset.memory.read 0x204 = .ok 0 := by
  have hfont : lastFont restless = Vector.replicate 80 0xAA := rfl
  have hrom : lastRom restless = some [0xF0, 0x0A] := by decide +kernel
  have hbuild : Machine.build {} 0 = .ok (powerOn {} 0) := rfl
  obtain ⟨hequip, hbytes, hkeys, -, hawaiting, -⟩ := reset_eq_equip hbuild restless
  rw [hfont, hrom] at hequip hbytes
  exact ⟨hequip, by decide +kernel, hawaiting, hkeys 1, hbytes _ (by decide),
    hbytes _ (by decide)⟩

end Machine

end Chip8
