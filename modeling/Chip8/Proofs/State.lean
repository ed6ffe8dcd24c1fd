import Chip8.Proofs.Picture
import Chip8.Proofs.Table

/-!
Machines as states of the instruction table, and what the parts of an execution make of the state.
Two machines with one state are the same machine.
-/

namespace Chip8

/-- The byte at an address; outside memory it is 0. -/
def Memory.numberAt (m : Memory) (a : Nat) : Nat :=
  match m.read a with
  | .ok b => b.toNat
  | .error _ => 0

def Machine.state (m : Machine) : Table.State where
  config := m.config
  font := m.font
  rom := m.rom
  memory := m.memory.numberAt
  width := m.display.width
  height := m.display.height
  pixel := m.display.pixel
  pc := m.pc.toNat
  index := m.index.toNat
  v r := (m.v.get r).toNat
  stack := m.stack.entries.map UInt16.toNat
  depth := m.stack.depth
  delay := m.delayTimer.toNat
  sound := m.soundTimer.toNat
  down := m.keypad.isDown
  awaiting := m.awaiting
  fault := m.fault
  random := m.random

theorem Memory.numberAt_injective : Function.Injective Memory.numberAt := by
  rintro ⟨bytes⟩ ⟨bytes'⟩ h
  congr 1
  ext i hi
  have hi' := congrFun h i
  simp only [Memory.numberAt, Memory.read_of_lt _ hi] at hi'
  exact congrArg UInt8.toNat (UInt8.toNat_inj.mp hi')

theorem Memory.numberAt_of_slice {m : Memory} {a len k : Nat} {block : List UInt8}
    (h : m.slice a len = .ok block) (hk : k < len) :
    (block.getD k 0).toNat = m.numberAt (a + k) := by
  rw [numberAt, read_of_slice h hk]

theorem Memory.numberAt_splice {m m' : Memory} {a : Nat} {data : List UInt8}
    (h : m.splice a data = .ok m') (i : Nat) :
    m'.numberAt i =
      if a ≤ i ∧ i < a + data.length then (data.getD (i - a) 0).toNat else m.numberAt i := by
  rw [numberAt, read_splice h]
  by_cases hi : a ≤ i ∧ i < a + data.length
  · rw [dif_pos hi, if_pos hi, List.getD_eq_getElem?_getD,
      List.getElem?_eq_getElem (by omega), Option.getD_some]
  · rw [dif_neg hi, if_neg hi, numberAt]

theorem toNat_bigEndian (high low : UInt8) :
    (high.toUInt16 <<< 8 ||| low.toUInt16).toNat = 256 * high.toNat + low.toNat := by
  have hhigh := high.toNat_lt
  have hcount : (8 : UInt16).toNat % 16 = 8 := rfl
  rw [UInt16.toNat_or, UInt16.toNat_shiftLeft, UInt8.toNat_toUInt16, UInt8.toNat_toUInt16, hcount,
    Nat.shiftLeft_eq, Nat.mod_eq_of_lt (by omega), Nat.mul_comm]
  exact (Nat.two_pow_add_eq_or_of_lt low.toNat_lt _).symm

theorem Memory.toNat_of_readWord {m : Memory} {a : Nat} {w : UInt16} (h : m.readWord a = .ok w) :
    w.toNat = 256 * m.numberAt a + m.numberAt (a + 1) := by
  have hlow := lt_of_readWord h
  have hhigh : a < 4096 := Nat.lt_of_succ_lt hlow
  unfold readWord at h
  rw [read_of_lt m hhigh, read_of_lt m hlow] at h
  obtain rfl := Except.ok.inj h
  rw [numberAt, numberAt, read_of_lt m hhigh, read_of_lt m hlow]
  exact toNat_bigEndian ..

theorem vector_ext_get {α : Type} {n : Nat} {v w : Vector α n} (h : ∀ i, v.get i = w.get i) :
    v = w := by
  ext i hi
  exact h ⟨i, hi⟩

namespace Machine

theorem stack_eq_of_state {m n : Machine} (hdepth : m.state.depth = n.state.depth)
    (hstack : m.state.stack = n.state.stack) : m.stack = n.stack := by
  have hentries : m.stack.entries = n.stack.entries :=
    List.map_injective_iff.mpr (fun _ _ => UInt16.toNat_inj.mp) hstack
  exact CallStack.ext hdepth hentries

theorem state_injective : Function.Injective Machine.state := by
  intro m n h
  have hmemory : m.memory = n.memory :=
    Memory.numberAt_injective (congrArg Table.State.memory h)
  have hdisplay : m.display = n.display :=
    Display.ext_pixel (congrArg Table.State.width h) (congrArg Table.State.height h)
      fun x y => congrFun (congrFun (congrArg Table.State.pixel h) x) y
  have hpc : m.pc = n.pc := UInt16.toNat_inj.mp (congrArg Table.State.pc h)
  have hindex : m.index = n.index := UInt16.toNat_inj.mp (congrArg Table.State.index h)
  have hv : m.v = n.v :=
    vector_ext_get fun r => UInt8.toNat_inj.mp (congrFun (congrArg Table.State.v h) r)
  have hstack : m.stack = n.stack :=
    stack_eq_of_state (congrArg Table.State.depth h) (congrArg Table.State.stack h)
  have hdelay : m.delayTimer = n.delayTimer := UInt8.toNat_inj.mp (congrArg Table.State.delay h)
  have hsound : m.soundTimer = n.soundTimer := UInt8.toNat_inj.mp (congrArg Table.State.sound h)
  have hkeypad : m.keypad = n.keypad :=
    Keypad.ext (vector_ext_get (congrFun (congrArg Table.State.down h)))
  exact Machine.ext (congrArg Table.State.config h) (congrArg Table.State.font h)
    (congrArg Table.State.rom h) hmemory hdisplay hpc hindex hv hstack hdelay hsound hkeypad
    (congrArg Table.State.awaiting h) (congrArg Table.State.fault h)
    (congrArg Table.State.random h)

variable (m : Machine)

/-- The word of the state is the word that is fetched. -/
theorem nextWord_of_state {w : UInt16} (hpc : m.pc.toNat + 1 < 4096)
    (h : m.state.word = w.toNat) : m.nextWord = .ok w := by
  obtain ⟨w', hw⟩ := m.memory.readWord_of_lt hpc
  have hval : w'.toNat = m.state.word := Memory.toNat_of_readWord hw
  rw [← UInt16.toNat_inj.mp (hval.trans h)]
  exact hw

theorem toNat_add_two {a : UInt16} (h : a.toNat + 2 < 65536) : (a + 2).toNat = a.toNat + 2 := by
  rw [UInt16.toNat_add]
  exact Nat.mod_eq_of_lt h

theorem state_setRegister (x : Nibble) (b : UInt8) :
    (m.setRegister x b).state = m.state.set x b.toNat := by
  have hv : (fun r => ((setAt m.v x b).get r).toNat) =
      fun r => if r = x then b.toNat else (m.v.get r).toNat := by
    funext r
    rw [get_setAt]
    by_cases hr : r = x
    · rw [if_pos hr.symm, if_pos hr]
    · rw [if_neg (Ne.symm hr), if_neg hr]
  exact congrArg (fun v => { m.state with v }) hv

/-- A new picture of the same size. -/
theorem state_setDisplay {d : Display} (hw : d.width = m.display.width)
    (hh : d.height = m.display.height) :
    ({ m with display := d } : Machine).state = { m.state with pixel := d.pixel } := by
  simp only [state, hw, hh]

theorem state_setFlag (on : Bool) : (m.setFlag on).state = m.state.set 0xF on.toNat := by
  unfold setFlag
  rw [state_setRegister]
  cases on <;> rfl

variable {m}

theorem state_pastFetch (h : m.pc.toNat + 2 < 65536) : m.pastFetch.state = m.state.next :=
  congrArg (fun pc => { m.state with pc }) (toNat_add_two h)

theorem state_skipIf (h : m.pc.toNat + 4 < 65536) (condition : Bool) :
    (m.pastFetch.skipIf condition).state = m.state.skipIf condition := by
  have hnext := toNat_add_two (a := m.pc) (by omega)
  cases condition with
  | false => exact congrArg (fun pc => { m.state with pc }) hnext
  | true =>
    have hskip : (m.pc + 2 + 2).toNat = m.pc.toNat + 4 := by
      rw [toNat_add_two (by omega), hnext]
    exact congrArg (fun pc => { m.state with pc }) hskip

theorem state_jump (m : Machine) {n : Nat} (h : n < 65536) :
    ({ m with pc := UInt16.ofNat n } : Machine).state = { m.state with pc := n } :=
  congrArg (fun pc => { m.state with pc }) (UInt16.toNat_ofNat_of_lt' h)

theorem state_setIndex (h : m.pc.toNat + 2 < 65536) {n : Nat} (hn : n < 65536) :
    ({ m.pastFetch with index := UInt16.ofNat n } : Machine).state =
      { m.state.next with index := n } := by
  rw [← state_pastFetch h]
  exact congrArg (fun index => { m.pastFetch.state with index }) (UInt16.toNat_ofNat_of_lt' hn)

/-- Other memory past the fetch. -/
theorem state_setMemory (h : m.pc.toNat + 2 < 65536) {memory : Memory} {f : Nat → Nat}
    (hm : ∀ a, memory.numberAt a = f a) :
    ({ m.pastFetch with memory } : Machine).state = { m.state.next with memory := f } := by
  rw [← state_pastFetch h]
  exact congrArg (fun memory => { m.pastFetch.state with memory }) (funext hm)

/-- Setting registers past the fetch is setting numbers in the next state. -/
theorem state_set (h : m.pc.toNat + 2 < 65536) {x : Nibble} {b : UInt8} {n : Nat}
    (hb : b.toNat = n) : (m.pastFetch.setRegister x b).state = m.state.next.set x n := by
  rw [state_setRegister, state_pastFetch h, hb]

theorem state_setWithFlag (h : m.pc.toNat + 2 < 65536) {x : Nibble} {b : UInt8} {on : Bool}
    {n flag : Nat} (hb : b.toNat = n) (hon : on.toNat = flag) :
    ((m.pastFetch.setRegister x b).setFlag on).state = m.state.next.setWithFlag x n flag := by
  rw [state_setFlag, state_set h hb, hon]
  rfl

end Machine

end Chip8
