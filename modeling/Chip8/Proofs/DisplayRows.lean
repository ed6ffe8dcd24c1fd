import Chip8.Debugger.View
import Chip8.Proofs.Drawings

/-!
The readers of a display agree. Its cells lie in one row after another, and a pixel, a row and a
line on the screen are found by indices of their own; after any draws and clears they show the same
picture, of the size that the display was made with.
-/

namespace Chip8

namespace Display

/-- What is done to a display. -/
inductive Call where
  | draw (a : Drawing)
  | clear

def call (d : Display) : Call → Display
  | .draw a => d.paint a
  | .clear => d.clear

/-- The display after some calls, of which the first comes first. -/
def callAll (d : Display) (calls : List Call) : Display := calls.foldl call d

variable {d : Display} {x y : Nat}

theorem call_size (d : Display) (c : Call) :
    (d.call c).width = d.width ∧ (d.call c).height = d.height := by
  cases c with
  | draw a => exact ⟨draw_width .., draw_height ..⟩
  | clear => exact ⟨rfl, rfl⟩

theorem callAll_size (d : Display) (calls : List Call) :
    (d.callAll calls).width = d.width ∧ (d.callAll calls).height = d.height := by
  induction calls generalizing d with
  | nil => exact ⟨rfl, rfl⟩
  | cons c calls ih =>
    obtain ⟨hw, hh⟩ := d.call_size c
    rw [← hw, ← hh]
    exact ih (d.call c)

theorem length_cells (d : Display) : d.cells.toList.length = d.width * d.height :=
  d.cells.length_toList

theorem row_eq (d : Display) (y : Nat) :
    d.row y = (d.cells.toList.drop (d.width * y)).take d.width := by
  rw [row, Vector.toList_extract, Nat.add_sub_cancel_left, Nat.mul_comm]

/-- The rows are what is got by cutting up the cells. -/
theorem rows_eq_chunks (hw : 0 < d.width) : d.rows = HexDump.chunks d.width d.cells.toList := by
  have hcount : (d.cells.toList.length + d.width - 1) / d.width = d.height := by
    rw [length_cells, Nat.add_sub_assoc hw, Nat.mul_add_div hw, Nat.div_eq_of_lt (by omega),
      Nat.add_zero]
  rw [HexDump.chunks_eq hw, hcount, rows]
  exact List.map_congr_left fun y _ => d.row_eq y

theorem length_row (hy : y < d.height) : (d.row y).length = d.width := by
  have hend := Nat.mul_le_mul_left d.width (Nat.succ_le_of_lt hy)
  rw [Nat.mul_succ] at hend
  rw [row_eq, List.length_take, List.length_drop, length_cells]
  omega

theorem getElem?_row (hx : x < d.width) (hy : y < d.height) :
    (d.row y)[x]? = some (d.pixel x y) := by
  have hi := index_lt hx hy
  have hindex : d.width * y + x = y * d.width + x := by rw [Nat.mul_comm]
  rw [row_eq, List.getElem?_take, if_pos hx, List.getElem?_drop, hindex, pixel_eq_get d hx hy,
    List.getElem?_eq_getElem (by rwa [length_cells]), Vector.getElem_toList]
  rfl

theorem getElem?_rows (hy : y < d.height) : d.rows[y]? = some (d.row y) := by
  simp [rows, hy]

end Display

namespace Checked

/-- Whether a cell is lit, with its index checked. -/
def pixel (d : Display) (x y : Nat) : Option Bool :=
  if x < d.width ∧ y < d.height then do
    let line ← product 64 y d.width
    let i ← sum 64 line x
    if h : i < d.width * d.height then return d.cells[i] else none
  else some false

/-- The cells cut into pieces of the width, which may not be zero. What is left over is dropped. -/
def rows (d : Display) : Option (List (List Bool)) :=
  if d.width = 0 then none
  else some ((HexDump.chunks d.width d.cells.toList).filter fun piece => piece.length = d.width)

variable {d : Display}

theorem pixel_eq (harea : d.width * d.height < 2 ^ 64) (x y : Nat) :
    pixel d x y = some (d.pixel x y) := by
  by_cases h : x < d.width ∧ y < d.height
  · have hi := Display.index_lt h.1 h.2
    have hline : product 64 y d.width = _ := product_eq (by omega)
    have hcell : sum 64 (y * d.width) x = _ := sum_eq (by omega)
    rw [pixel, if_pos h, Display.pixel_eq_get d h.1 h.2]
    simp only [hline, hcell, Option.bind_eq_bind, Option.bind_some]
    exact dif_pos hi
  · rw [pixel, if_neg h, Display.pixel_eq_false d h]

theorem rows_eq (hw : 0 < d.width) : rows d = some d.rows := by
  rw [rows, if_neg (Nat.ne_of_gt hw), ← Display.rows_eq_chunks hw, List.filter_eq_self.mpr]
  intro row hrow
  obtain ⟨y, hy, rfl⟩ := List.mem_map.mp hrow
  exact decide_eq_true (Display.length_row (List.mem_range.mp hy))

end Checked

namespace Display

/-- Whatever is drawn and cleared on a display, it keeps its size and a cell for each pixel. Its
rows are the cells cut up, as many as it is high and each as long as it is wide, and entry `x` of
row `y` is pixel `(x, y)`. All other pixels are unlit, also beside a row, and none is looked up
outside the cells. The screen has a line for each row, with a block for every lit pixel. -/
theorem readers_agree {width height : Nat} (hw : 0 < width) (harea : width * height < 2 ^ 64)
    (calls : List Call) :
    let d := (blank width height).callAll calls
    d.width = width ∧ d.height = height ∧ d.cells.toList.length = width * height ∧
    Checked.rows d = some d.rows ∧ d.rows.flatten = d.cells.toList ∧
    d.rows.length = height ∧ (∀ row ∈ d.rows, row.length = width) ∧
    (∀ x y, x < width → y < height →
      ∃ row, d.rows[y]? = some row ∧ row[x]? = some (d.pixel x y)) ∧
    (∀ x y, ¬(x < width ∧ y < height) → d.pixel x y = false) ∧
    (∀ x y, Checked.pixel d x y = some (d.pixel x y)) ∧
    (View.screen d).length = height ∧
    ∀ x y, x < width → y < height →
      ∃ line, (View.screen d)[y]? = some line ∧ line.text.toList.length = width ∧
        line.text.toList[x]? = some (if d.pixel x y then '█' else ' ') := by
  intro d
  have hsize : d.width = width ∧ d.height = height := callAll_size ..
  -- From here on the display may be any of its size.
  clear_value d
  obtain ⟨rfl, rfl⟩ := hsize
  have hlength : d.rows.length = d.height := by simp [rows]
  refine ⟨rfl, rfl, d.length_cells, Checked.rows_eq hw, ?_, hlength, ?row, ?entry,
    fun x y => d.pixel_eq_false, Checked.pixel_eq harea, ?_, ?screen⟩
  · rw [rows_eq_chunks hw, HexDump.flatten_chunks hw]
  case row =>
    intro row hrow
    obtain ⟨y, hy, rfl⟩ := List.mem_map.mp hrow
    exact length_row (List.mem_range.mp hy)
  case entry =>
    intro x y hx hy
    exact ⟨d.row y, getElem?_rows hy, getElem?_row hx hy⟩
  · rw [View.screen, List.length_map, hlength]
  case screen =>
    intro x y hx hy
    refine ⟨_, by rw [View.screen, List.getElem?_map, getElem?_rows hy]; rfl, ?_, ?_⟩
    · simp [View.screenRow, length_row hy]
    · simp [View.screenRow, getElem?_row hx hy, View.litCell]

/-- A bar is wiped, and a sprite is drawn of which only a corner is on the screen. -/
def cornerDrawn : Display :=
  (blank 3 2).callAll [.draw ⟨0, 0, [0xFF]⟩, .clear, .draw ⟨5, 3, [0xC0, 0x80]⟩]

/-- The corner is in the last row, and is not seen as a pixel beside the row above. -/
theorem readers_agree_cornerDrawn :
    cornerDrawn.cells.toList.length = 6 ∧ cornerDrawn.pixel 2 1 = true ∧
      cornerDrawn.pixel 5 0 = false ∧ Checked.pixel cornerDrawn 5 0 = some false ∧
      ∃ row line, cornerDrawn.rows[1]? = some row ∧ row[2]? = some true ∧
        (View.screen cornerDrawn)[1]? = some line ∧ line.text.toList[2]? = some '█' := by
  have hlit : cornerDrawn.pixel 2 1 = true := by decide +kernel
  obtain ⟨-, -, hcells, -, -, -, -, hentry, hbeside, hchecked, -, hscreen⟩ :=
    readers_agree (show 0 < 3 by decide) (show 3 * 2 < 2 ^ 64 by decide)
      [.draw ⟨0, 0, [0xFF]⟩, .clear, .draw ⟨5, 3, [0xC0, 0x80]⟩]
  obtain ⟨row, hrow, hcell⟩ := hentry 2 1 (by decide) (by decide)
  obtain ⟨line, hline, -, hblock⟩ := hscreen 2 1 (by decide) (by decide)
  have hunlit : cornerDrawn.pixel 5 0 = false := hbeside 5 0 (by decide)
  refine ⟨hcells, hlit, hunlit, (hchecked 5 0).trans (congrArg some hunlit), row, line, hrow,
    hcell.trans (congrArg some hlit), hline, hblock.trans ?_⟩
  exact congrArg some (if_pos hlit)

end Display

end Chip8
