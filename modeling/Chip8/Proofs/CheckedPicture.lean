import Chip8.Proofs.Checked
import Chip8.Proofs.Picture

/-!
Drawing row by row and column by column, with every index checked, is drawing all at once. Each
cell is met once, so whether it was lit can be asked when its turn comes. Either way a draw changes
the pixels under the set bits of its sprite, as far as they are on the screen, and no others.
-/

namespace Chip8

namespace Display

/-- Flips a cell, and takes note if it was lit. -/
def mark (drawn : Display × Bool) (p : Nat × Nat) : Display × Bool :=
  (drawn.1.toggle p, drawn.2 || drawn.1.pixel p.1 p.2)

theorem mark_outside {drawn : Display × Bool} {p : Nat × Nat} (h : drawn.1.width ≤ p.1) :
    mark drawn p = drawn := by
  have hout : ¬(p.1 < drawn.1.width ∧ p.2 < drawn.1.height) := by omega
  rw [mark, toggle, dif_neg hout, pixel_eq_false _ hout, Bool.or_false]

theorem foldl_mark_outside {drawn : Display × Bool} {cells : List (Nat × Nat)}
    (h : ∀ p ∈ cells, drawn.1.width ≤ p.1) : cells.foldl mark drawn = drawn := by
  induction cells with
  | nil => rfl
  | cons p cells ih =>
    obtain ⟨hp, hcells⟩ := List.forall_mem_cons.mp h
    rw [List.foldl_cons, mark_outside hp]
    exact ih hcells

theorem foldl_mark {cells : List (Nat × Nat)} (h : cells.Nodup) (d : Display) (erased : Bool) :
    cells.foldl mark (d, erased) =
      (cells.foldl toggle d, erased || cells.any fun p => d.pixel p.1 p.2) := by
  induction cells generalizing d erased with
  | nil => simp
  | cons p cells ih =>
    obtain ⟨hp, hcells⟩ := List.nodup_cons.mp h
    -- The first cell is not met again, so flipping it makes no difference to the others.
    have hany : (cells.any fun q => (d.toggle p).pixel q.1 q.2) =
        cells.any fun q => d.pixel q.1 q.2 := by
      rw [Bool.eq_iff_iff, List.any_eq_true, List.any_eq_true]
      refine exists_congr fun q => and_congr_right fun hq => ?_
      have hne : ¬(p = (q.1, q.2) ∧ q.1 < d.width ∧ q.2 < d.height) := by
        rintro ⟨rfl, -⟩
        exact hp hq
      rw [pixel_toggle, if_neg hne]
    rw [List.foldl_cons, mark, ih hcells, hany, List.foldl_cons, List.any_cons, Bool.or_assoc]

@[simp] theorem foldl_mark_width (cells : List (Nat × Nat)) (drawn : Display × Bool) :
    (cells.foldl mark drawn).1.width = drawn.1.width := by
  induction cells generalizing drawn with
  | nil => rfl
  | cons p cells ih => rw [List.foldl_cons, ih, mark, toggle_width]

@[simp] theorem foldl_mark_height (cells : List (Nat × Nat)) (drawn : Display × Bool) :
    (cells.foldl mark drawn).1.height = drawn.1.height := by
  induction cells generalizing drawn with
  | nil => rfl
  | cons p cells ih => rw [List.foldl_cons, ih, mark, toggle_height]

/-- The cells under the set bits in the given columns of a sprite row. -/
def rowCells (left y : Nat) (bits : UInt8) (cols : List Nat) : List (Nat × Nat) :=
  (cols.filter (spriteBit bits)).map fun col => (left + col, y)

/-- Columns past the right edge may be left out. -/
theorem foldl_mark_clip {left y : Nat} (bits : UInt8) {drawn : Display × Bool} :
    (rowCells left y bits (List.range 8)).foldl mark drawn =
      (rowCells left y bits (List.range (min 8 (drawn.1.width - left)))).foldl mark drawn := by
  have hsplit : List.range 8 = List.range (min 8 (drawn.1.width - left)) ++
      (List.range (8 - min 8 (drawn.1.width - left))).map (min 8 (drawn.1.width - left) + ·) := by
    rw [← List.range_add]
    congr 1
    omega
  conv_lhs => rw [hsplit]
  unfold rowCells
  rw [List.filter_append, List.map_append, List.foldl_append]
  refine foldl_mark_outside fun p hp => ?_
  obtain ⟨col, hcol, rfl⟩ := List.mem_map.mp hp
  obtain ⟨k, hk, rfl⟩ := List.mem_map.mp (List.mem_of_mem_filter hcol)
  have := List.mem_range.mp hk
  change (List.foldl mark drawn _).1.width ≤ left + _
  rw [foldl_mark_width]
  omega

end Display

namespace Checked

open Display

theorem shiftRight_eq {col : Nat} (h : col < 8) :
    ∃ mask, shiftRight 0x80 col = some mask ∧ mask.toNat = 2 ^ (7 - col) := by
  refine ⟨_, if_pos h, ?_⟩
  decide +revert

theorem and_mask_eq_zero (bits : UInt8) {mask : UInt8} {col : Nat}
    (h : mask.toNat = 2 ^ (7 - col)) : bits &&& mask = 0 ↔ spriteBit bits col = false := by
  rw [← UInt8.toNat_inj, UInt8.toNat_and, h, Nat.and_two_pow, spriteBit]
  cases bits.toNat.testBit (7 - col) <;> simp

theorem drawCell_eq {left top row col : Nat} {drawn : Display × Bool} (bits : UInt8)
    (hcol : col < 8) (hx : left + col < drawn.1.width) (hy : top + row < drawn.1.height)
    (harea : drawn.1.width * drawn.1.height < 2 ^ 64) :
    drawCell left top row bits drawn col =
      some (if spriteBit bits col then mark drawn (left + col, top + row) else drawn) := by
  obtain ⟨mask, hmask, hval⟩ := shiftRight_eq hcol
  have hzero := and_mask_eq_zero bits hval
  unfold drawCell
  rw [hmask]
  by_cases hbit : spriteBit bits col = true
  · have hi := index_lt hx hy
    have hy' : top + row ≤ (top + row) * drawn.1.width :=
      Nat.le_mul_of_pos_right _ (Nat.zero_lt_of_lt hx)
    have hne : ¬bits &&& mask = 0 := fun h0 => absurd hbit (Bool.eq_false_iff.mp (hzero.mp h0))
    rw [if_pos hbit, mark, toggle, dif_pos ⟨hx, hy⟩]
    have hrow : sum 64 top row = some (top + row) := sum_eq (by omega)
    have hline : product 64 (top + row) drawn.1.width = _ := product_eq (by omega)
    have hcorner : sum 64 ((top + row) * drawn.1.width) left = _ := sum_eq (by omega)
    have hcell : sum 64 ((top + row) * drawn.1.width + left) col = _ := sum_eq (by omega)
    simp only [Option.bind_eq_bind, Option.bind_some, if_neg hne, hrow, hline, hcorner, hcell,
      Nat.add_assoc, pixel_eq_get _ hx hy]
    exact dif_pos hi
  · rw [if_neg hbit]
    have h0 := hzero.mpr (Bool.eq_false_iff.mpr hbit)
    exact if_pos h0

theorem drawRow_eq {left top row : Nat} {drawn : Display × Bool} (bits : UInt8)
    (hy : top + row < drawn.1.height) (harea : drawn.1.width * drawn.1.height < 2 ^ 64)
    {cols : List Nat} (hcols : ∀ col ∈ cols, col < 8 ∧ left + col < drawn.1.width) :
    cols.foldlM (drawCell left top row bits) drawn =
      some ((rowCells left (top + row) bits cols).foldl mark drawn) := by
  induction cols generalizing drawn with
  | nil => rfl
  | cons col cols ih =>
    obtain ⟨⟨hcol, hx⟩, hrest⟩ := List.forall_mem_cons.mp hcols
    rw [List.foldlM_cons, drawCell_eq bits hcol hx hy harea, rowCells]
    by_cases hbit : spriteBit bits col = true
    · rw [if_pos hbit, List.filter_cons_of_pos hbit, List.map_cons, List.foldl_cons]
      exact ih (by simpa [mark] using hy) (by simpa [mark] using harea)
        (by simpa [mark] using hrest)
    · rw [if_neg hbit, List.filter_cons_of_neg hbit]
      exact ih hy harea hrest

theorem drawRows_eq {left top row : Nat} {sprite : List UInt8} {drawn : Display × Bool}
    (hleft : left < drawn.1.width) (hbottom : top + row + sprite.length ≤ drawn.1.height)
    (harea : drawn.1.width * drawn.1.height < 2 ^ 64) :
    drawRows left top (min 8 (drawn.1.width - left)) row sprite drawn =
      some ((footprint left (top + row) sprite).foldl mark drawn) := by
  induction sprite generalizing row drawn with
  | nil => rfl
  | cons bits sprite ih =>
    rw [List.length_cons] at hbottom
    have hcols : ∀ col ∈ List.range (min 8 (drawn.1.width - left)),
        col < 8 ∧ left + col < drawn.1.width := by
      intro col hcol
      have := List.mem_range.mp hcol
      omega
    have hy : top + row < drawn.1.height := by omega
    -- The rows below are drawn on what this one leaves, a display of the same size.
    have hbelow := @ih (row + 1) ((rowCells left (top + row) bits
        (List.range (min 8 (drawn.1.width - left)))).foldl mark drawn)
      (by simpa using hleft) (by simp only [foldl_mark_height]; omega) (by simpa using harea)
    rw [foldl_mark_width] at hbelow
    rw [drawRows, drawRow_eq bits hy harea hcols, Option.bind_eq_bind, Option.bind_some, hbelow,
      footprint, List.foldl_append]
    exact congrArg (fun drawn => some ((footprint left (top + row + 1) sprite).foldl mark drawn))
      (foldl_mark_clip bits).symm

theorem draw_eq {d : Display} (hw : 0 < d.width) (hh : 0 < d.height)
    (harea : d.width * d.height < 2 ^ 64) (x y : Nat) (sprite : List UInt8) :
    draw d x y sprite = some (d.draw x y sprite) := by
  have hleft := Nat.mod_lt x hw
  have htop := Nat.mod_lt y hh
  have hfits : y % d.height + 0 + (sprite.take (min sprite.length (d.height - y % d.height))).length
      ≤ d.height := by
    rw [List.length_take]
    omega
  have hrows := @drawRows_eq _ _ 0 _ (d, false) hleft hfits harea
  simp only [draw, remainder_eq hw, remainder_eq hh, difference_eq (Nat.le_of_lt hleft),
    difference_eq (Nat.le_of_lt htop), Option.bind_eq_bind, Option.bind_some]
  rw [hrows, foldl_mark (nodup_footprint ..), Bool.false_or]
  rfl

end Checked

namespace Display

/-- Pixel `(px, py)` is on the screen, under a set bit of a sprite drawn at `(x, y)`. The origin
wraps round the screen, the body does not. -/
def Covered (d : Display) (x y : Nat) (sprite : List UInt8) (px py : Nat) : Prop :=
  x % d.width ≤ px ∧ px < min (x % d.width + 8) d.width ∧
    y % d.height ≤ py ∧ py < min (y % d.height + sprite.length) d.height ∧
    ∃ bits, sprite[py - y % d.height]? = some bits ∧
      bits.toNat.testBit (7 - (px - x % d.width)) = true

variable {d : Display} {x y px py : Nat} {sprite : List UInt8}

theorem flips_iff_covered :
    d.flips x y sprite px py = true ↔ d.Covered x y sprite px py := by
  simp only [flips, Covered, Bool.and_eq_true, decide_eq_true_eq, and_assoc]
  refine and_congr_right fun _ => and_congr_right fun _ => and_congr_right fun htop =>
    and_congr_right fun hbottom => ?_
  have hrow : py - y % d.height < sprite.length := by omega
  rw [List.getD_eq_getElem _ _ hrow, List.getElem?_eq_getElem hrow]
  constructor
  · intro hbit
    exact ⟨_, rfl, hbit⟩
  · rintro ⟨bits, hbits, hbit⟩
    obtain rfl := Option.some.inj hbits
    exact hbit

theorem pixel_draw_ne_iff :
    (d.draw x y sprite).1.pixel px py ≠ d.pixel px py ↔ d.Covered x y sprite px py := by
  rw [← flips_iff_covered, pixel_draw]
  cases d.pixel px py <;> simp

/-- A draw changes the pixels that its sprite covers and no others. It tells of a collision if one
of these was lit. Row by row and column by column it comes to the same, with every index inside the
screen. -/
theorem draw_pixel_by_pixel (d : Display) (x y : Nat) (sprite : List UInt8) :
    let drawn := d.draw x y sprite
    (∀ px py, drawn.1.pixel px py ≠ d.pixel px py ↔ d.Covered x y sprite px py) ∧
      (drawn.2 = true ↔ ∃ px py, d.Covered x y sprite px py ∧ d.pixel px py = true) ∧
      drawn.1.width = d.width ∧ drawn.1.height = d.height ∧
      (0 < d.width → 0 < d.height → d.width * d.height < 2 ^ 64 →
        Checked.draw d x y sprite = some drawn) := by
  intro drawn
  have hcollides : drawn.2 = true ↔
      ∃ px py, d.Covered x y sprite px py ∧ d.pixel px py = true := by
    simp only [← flips_iff_covered]
    exact draw_collides_iff d x y sprite
  exact ⟨fun _ _ => pixel_draw_ne_iff, hcollides, draw_width .., draw_height ..,
    fun hw hh harea => Checked.draw_eq hw hh harea x y sprite⟩

/-- A screen narrower and lower than a sprite, with its last pixel lit. -/
def cornerLit : Display := (blank 5 2).toggle (4, 1)

/-- From an origin beyond the screen two pixels of the last row are flipped, and the lit one goes
out. -/
theorem draw_pixel_by_pixel_cornerLit :
    let drawn := cornerLit.draw 8 3 [0xFF, 0xFF, 0xFF]
    Checked.draw cornerLit 8 3 [0xFF, 0xFF, 0xFF] = some drawn ∧ drawn.2 = true ∧
      drawn.1.pixel 3 1 ≠ cornerLit.pixel 3 1 ∧ drawn.1.pixel 4 1 ≠ cornerLit.pixel 4 1 ∧
      drawn.1.pixel 0 1 = cornerLit.pixel 0 1 ∧ drawn.1.pixel 3 0 = cornerLit.pixel 3 0 := by
  intro drawn
  obtain ⟨hpixel, hcollides, -, -, hloops⟩ := draw_pixel_by_pixel cornerLit 8 3 [0xFF, 0xFF, 0xFF]
  have hfirst : cornerLit.Covered 8 3 [0xFF, 0xFF, 0xFF] 3 1 :=
    ⟨by decide, by decide, by decide, by decide, 0xFF, rfl, by decide⟩
  have hlast : cornerLit.Covered 8 3 [0xFF, 0xFF, 0xFF] 4 1 :=
    ⟨by decide, by decide, by decide, by decide, 0xFF, rfl, by decide⟩
  refine ⟨hloops (by decide) (by decide) (by decide), hcollides.mpr ⟨4, 1, hlast, by decide⟩,
    (hpixel 3 1).mpr hfirst, (hpixel 4 1).mpr hlast, ?_, ?_⟩
  · by_contra hne
    exact absurd ((hpixel 0 1).mp hne).1 (by decide)
  · by_contra hne
    exact absurd ((hpixel 3 0).mp hne).2.2.1 (by decide)

end Display

end Chip8
