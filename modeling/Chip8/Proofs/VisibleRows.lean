import Chip8.Proofs.History

/-!
Draws from memory. Of the rows of its sprite a draw reads those that are on the screen, and no
others. It shows only where the others lie past the end of memory: there a draw that read them all
would fail.
-/

namespace Chip8

namespace Display

/-- A pixel is lit before and not after. -/
def Erased (before after : Display) : Prop :=
  ∃ px py, before.pixel px py = true ∧ after.pixel px py = false

theorem draw_collides_iff_erased (d : Display) (x y : Nat) (sprite : List UInt8) :
    (d.draw x y sprite).2 = true ↔ d.Erased (d.draw x y sprite).1 := by
  rw [draw_collides_iff]
  refine exists₂_congr fun px py => ?_
  rw [pixel_draw, and_comm]
  refine and_congr_right fun hlit => ?_
  rw [hlit, Bool.true_xor, Bool.not_eq_false']

/-- What follows the rows on the screen makes no difference to a draw. -/
theorem draw_append {d : Display} {x y : Nat} {rows hidden : List UInt8}
    (h : rows.length = d.visibleRows y (rows.length + hidden.length)) :
    d.draw x y (rows ++ hidden) = d.draw x y rows := by
  have hall := d.draw_take_visible x y (rows ++ hidden)
  rw [List.length_append, ← h, List.take_left] at hall
  exact hall.symm

end Display

namespace Machine

/-- The machine after a draw of `sprite` at `(Vx, Vy)`, with VF set if it collided. -/
def drawn (m : Machine) (x y : Nibble) (sprite : List UInt8) : Machine :=
  let drawn := m.display.draw (m.v.get x).toNat (m.v.get y).toNat sprite
  { m with display := drawn.1 }.setFlag drawn.2

end Machine

namespace Execution

/-- A draw that reads all rows of its sprite, whether they are on the screen or not. -/
def drawAllRows (x y n : Nibble) : Execution Outcome := do
  let m ← get
  let sprite ← ofExcept (m.memory.slice m.index.toNat n.val)
  modify fun m => m.drawn x y sprite
  return .drew

theorem drawAllRows_apply (x y n : Nibble) (m : Machine) :
    drawAllRows x y n m = match m.memory.slice m.index.toNat n.val with
      | .ok sprite => .ok .drew (m.drawn x y sprite)
      | .error cause => .error cause m := by
  unfold drawAllRows
  rcases h : m.memory.slice m.index.toNat n.val with cause | sprite <;>
    simp only [bind_apply, get_apply, h, ofExcept_ok, ofExcept_error, modify_apply]
  rfl

end Execution

namespace Machine

variable {m : Machine} {x y n : Nibble} {sprite sprite' rows hidden : List UInt8}

theorem drawn_congr (h : m.display.draw (m.v.get x).toNat (m.v.get y).toNat sprite =
    m.display.draw (m.v.get x).toNat (m.v.get y).toNat sprite') :
    m.drawn x y sprite = m.drawn x y sprite' := by
  rw [drawn, drawn, h]

/-- A draw moves the display and VF, and VF tells whether a lit pixel was put out. -/
theorem drawn_eq (m : Machine) (x y : Nibble) (sprite : List UInt8) :
    let after := m.drawn x y sprite
    after = { m with display := after.display, v := setAt m.v 0xF (after.v.get 0xF) } ∧
      (m.display.Erased after.display → after.v.get 0xF = 1) ∧
      (¬m.display.Erased after.display → after.v.get 0xF = 0) := by
  intro after
  have hcollides := m.display.draw_collides_iff_erased (m.v.get x).toNat (m.v.get y).toNat sprite
  have hflag : after.v.get 0xF =
      if (m.display.draw (m.v.get x).toNat (m.v.get y).toNat sprite).2 then 1 else 0 := by
    rw [show after.v = setAt m.v 0xF _ from rfl, get_setAt, if_pos rfl]
  refine ⟨?_, ?_, ?_⟩
  · rw [hflag]
    rfl
  · intro herased
    rw [hflag, if_pos (hcollides.mpr herased)]
  · intro hkept
    rw [hflag, if_neg fun hcollided => hkept (hcollides.mp hcollided)]

theorem step_draw (h : m.Executes (.draw x y n)) (hrows : m.spriteRows y n = .ok rows) :
    m.step = ⟨.ok .drew, m.pastFetch.drawn x y rows⟩ := by
  apply h.step_ok
  have hrows' : m.pastFetch.spriteRows y n = .ok rows := hrows
  rw [Instruction.execute_draw, hrows']
  rfl

/-- Whatever stands for the rows below the screen, the step draws the same. -/
theorem step_draw_append (h : m.Executes (.draw x y n)) (hrows : m.spriteRows y n = .ok rows)
    (hn : rows.length + hidden.length = n.val) :
    m.step = ⟨.ok .drew, m.pastFetch.drawn x y (rows ++ hidden)⟩ := by
  have hlength : rows.length = m.display.visibleRows (m.v.get y).toNat n.val :=
    Memory.length_of_slice hrows
  have hdraw : m.display.draw (m.v.get x).toNat (m.v.get y).toNat (rows ++ hidden) = _ :=
    Display.draw_append (by rw [hn, hlength])
  rw [step_draw h hrows, drawn_congr (m := m.pastFetch) hdraw]

/-- Where all rows are in memory it makes no difference whether those below the screen are read. -/
theorem drawAllRows_of_executes (h : m.Executes (.draw x y n))
    (hall : m.index.toNat + n.val ≤ 4096) :
    Execution.drawAllRows x y n m.pastFetch = .ok .drew m.step.machine := by
  obtain ⟨sprite, hsprite⟩ : ∃ sprite, m.memory.slice m.index.toNat n.val = .ok sprite :=
    ⟨_, m.memory.slice_eq_ok hall⟩
  -- The rows that the step reads are the first of them.
  have hrows : m.spriteRows y n = .ok _ := Memory.slice_take hsprite (Nat.min_le_left ..)
  have hn : (sprite.take (m.display.visibleRows (m.v.get y).toNat n.val)).length +
      (sprite.drop (m.display.visibleRows (m.v.get y).toNat n.val)).length = n.val := by
    rw [← List.length_append, List.take_append_drop, Memory.length_of_slice hsprite]
  have hsprite' : m.pastFetch.memory.slice m.pastFetch.index.toNat n.val = .ok sprite := hsprite
  rw [Execution.drawAllRows_apply, hsprite', step_draw_append h hrows hn, List.take_append_drop]

/-- A draw goes through if the rows of its sprite that are on the screen are in memory. Where all
rows are, it comes to what reading them all comes to, and where those below the screen are not, to
what they would make of it whatever they were. Nothing moves but the display, the program counter
and VF, which tells whether a lit pixel was put out. -/
theorem draw_reads_visible_rows (h : m.Executes (.draw x y n))
    (hroom : m.index.toNat +
      min n.val (m.display.height - (m.v.get y).toNat % m.display.height) ≤ 4096) :
    let after := m.step.machine
    m.step.result = .ok .drew ∧
      (m.index.toNat + n.val ≤ 4096 →
        Execution.drawAllRows x y n m.pastFetch = .ok .drew after) ∧
      (∃ rows, m.memory.slice m.index.toNat
          (min n.val (m.display.height - (m.v.get y).toNat % m.display.height)) = .ok rows ∧
        ∀ hidden : List UInt8, rows.length + hidden.length = n.val →
          after = m.pastFetch.drawn x y (rows ++ hidden)) ∧
      after = { m with
        pc := m.pc + 2, display := after.display, v := setAt m.v 0xF (after.v.get 0xF) } ∧
      (m.display.Erased after.display → after.v.get 0xF = 1) ∧
      (¬m.display.Erased after.display → after.v.get 0xF = 0) := by
  obtain ⟨rows, hrows⟩ : ∃ rows, m.spriteRows y n = .ok rows := ⟨_, m.memory.slice_eq_ok hroom⟩
  have hstep := step_draw h hrows
  obtain ⟨hafter, hset, hclear⟩ := m.pastFetch.drawn_eq x y rows
  intro after
  have hmachine : after = m.pastFetch.drawn x y rows := congrArg Step.machine hstep
  rw [← hmachine] at hafter hset hclear
  refine ⟨congrArg Step.result hstep, drawAllRows_of_executes h, ⟨rows, hrows, ?_⟩, hafter, hset,
    hclear⟩
  intro hidden hn
  exact congrArg Step.machine (step_draw_append h hrows hn)

/-- A machine about to draw two rows at the lower edge, the first of them from the last byte of
memory. Its VF is the height. -/
def drawingAtEdge : Machine := { powerOn {} 0 with
  memory := ⟨overlay (overlay Memory.zero.bytes 0x200 [0xD1, 0xF2]) 0xFFF [0xC0]⟩
  index := 0xFFF
  v := setAt zeroRegisters 0xF 31 }

/-- The second row is not missed. -/
theorem draw_reads_visible_rows_drawingAtEdge :
    let after := drawingAtEdge.step.machine
    drawingAtEdge.Executes (.draw 1 0xF 2) ∧ drawingAtEdge.step.result = .ok .drew ∧
      (∀ bits, after = drawingAtEdge.pastFetch.drawn 1 0xF [0xC0, bits]) ∧
      after.v.get 0xF = 0 ∧ after.display.pixel 1 31 = true := by
  intro after
  have hdraw : drawingAtEdge.Executes (.draw 1 0xF 2) :=
    ⟨rfl, rfl, 0xD1F2, by decide +kernel, by decide⟩
  obtain ⟨hresult, -, ⟨rows, hrows, hhidden⟩, -, -, hclear⟩ :=
    draw_reads_visible_rows hdraw (by decide +kernel)
  have hrow : rows = [0xC0] := by
    have hslice : drawingAtEdge.memory.slice 0xFFF 1 = .ok [0xC0] := by decide +kernel
    exact Except.ok.inj (hrows.symm.trans hslice)
  subst hrow
  have hafter (bits : UInt8) : after = drawingAtEdge.pastFetch.drawn 1 0xF [0xC0, bits] :=
    hhidden [bits] rfl
  refine ⟨hdraw, hresult, hafter, hclear ?_, ?_⟩
  · rintro ⟨px, py, hlit, -⟩
    rw [show drawingAtEdge.display = Display.blank 64 32 from rfl, Display.pixel_blank] at hlit
    cases hlit
  · rw [hafter 0]
    decide +kernel

end Machine

end Chip8
