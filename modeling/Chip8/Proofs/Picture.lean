import Chip8.Display
import Mathlib.Data.List.Nodup

/-!
Sprites pixel by pixel. A draw visits each cell at most once, so a pixel changes exactly where a
set bit of the sprite lies over it, and a collision is such a pixel that was lit.
-/

namespace Chip8.Display

/-- Whether a sprite drawn at `(x, y)` has a set bit on the screen over pixel `(px, py)`. -/
def flips (d : Display) (x y : Nat) (sprite : List UInt8) (px py : Nat) : Bool :=
  x % d.width ≤ px && px < min (x % d.width + 8) d.width &&
    y % d.height ≤ py && py < min (y % d.height + sprite.length) d.height &&
    spriteBit (sprite.getD (py - y % d.height) 0) (px - x % d.width)

theorem mem_footprint {x y px py : Nat} {sprite : List UInt8} :
    (px, py) ∈ footprint x y sprite ↔ x ≤ px ∧ px < x + 8 ∧ y ≤ py ∧ py < y + sprite.length ∧
      spriteBit (sprite.getD (py - y) 0) (px - x) = true := by
  induction sprite generalizing y with
  | nil =>
    simp only [footprint, List.not_mem_nil, List.length_nil, false_iff]
    omega
  | cons bits sprite ih =>
    have hrow : (px, py) ∈ ((List.range 8).filter (spriteBit bits)).map (fun col => (x + col, y)) ↔
        x ≤ px ∧ px < x + 8 ∧ py = y ∧ spriteBit bits (px - x) = true := by
      simp only [List.mem_map, List.mem_filter, List.mem_range, Prod.mk.injEq]
      constructor
      · rintro ⟨col, ⟨hcol, hbit⟩, rfl, rfl⟩
        exact ⟨by omega, by omega, rfl, by rwa [Nat.add_sub_cancel_left]⟩
      · rintro ⟨hx, hx', rfl, hbit⟩
        exact ⟨px - x, ⟨by omega, hbit⟩, by omega, rfl⟩
    rw [footprint, List.mem_append, hrow, ih, List.length_cons]
    by_cases hy : py = y
    · subst hy
      have hnot : ¬py + 1 ≤ py := by omega
      simp [hnot]
    · by_cases hlt : y + 1 ≤ py
      · have hsub : py - y = py - (y + 1) + 1 := by omega
        rw [hsub, List.getD_cons_succ]
        have h₁ : py < y + 1 + sprite.length ↔ py < y + (sprite.length + 1) := by omega
        simp only [hy, hlt, h₁, false_and, and_false, false_or, true_and, (by omega : y ≤ py)]
      · omega

theorem nodup_footprint (x y : Nat) (sprite : List UInt8) : (footprint x y sprite).Nodup := by
  induction sprite generalizing y with
  | nil => exact List.nodup_nil
  | cons bits sprite ih =>
    rw [footprint]
    refine List.Nodup.append ?_ (ih (y + 1)) ?_
    · refine (List.nodup_range.filter _).map fun a b h => ?_
      have := (Prod.mk.inj h).1
      omega
    · -- The first row and the rows below it differ in the second coordinate.
      rintro ⟨px, py⟩ hrow hbelow
      obtain ⟨_, -, he⟩ := List.mem_map.mp hrow
      obtain ⟨-, -, hy, -⟩ := mem_footprint.mp hbelow
      have := (Prod.mk.inj he).2
      omega

@[simp] theorem foldl_toggle_width (cells : List (Nat × Nat)) (d : Display) :
    (cells.foldl toggle d).width = d.width := by
  induction cells generalizing d with
  | nil => rfl
  | cons p cells ih => rw [List.foldl_cons, ih, toggle_width]

@[simp] theorem foldl_toggle_height (cells : List (Nat × Nat)) (d : Display) :
    (cells.foldl toggle d).height = d.height := by
  induction cells generalizing d with
  | nil => rfl
  | cons p cells ih => rw [List.foldl_cons, ih, toggle_height]

theorem pixel_foldl_toggle {cells : List (Nat × Nat)} (h : cells.Nodup) (d : Display)
    {x y : Nat} (hx : x < d.width) (hy : y < d.height) :
    (cells.foldl toggle d).pixel x y = (d.pixel x y ^^ decide ((x, y) ∈ cells)) := by
  induction cells generalizing d with
  | nil => simp
  | cons p cells ih =>
    obtain ⟨hp, hcells⟩ := List.nodup_cons.mp h
    rw [List.foldl_cons, ih hcells (d.toggle p) (by simpa using hx) (by simpa using hy),
      pixel_toggle]
    by_cases he : p = (x, y)
    · subst he
      simp [hx, hy, hp]
    · have he' : ¬(x, y) = p := fun h => he h.symm
      simp [he, he']

@[simp] theorem draw_width (d : Display) (x y : Nat) (sprite : List UInt8) :
    (d.draw x y sprite).1.width = d.width := foldl_toggle_width ..

@[simp] theorem draw_height (d : Display) (x y : Nat) (sprite : List UInt8) :
    (d.draw x y sprite).1.height = d.height := foldl_toggle_height ..

/-- On the screen the cells that a draw visits are the ones it flips. -/
theorem mem_visible_footprint {d : Display} {x y px py : Nat} {sprite : List UInt8}
    (hx : px < d.width) (hy : py < d.height) :
    (px, py) ∈ footprint (x % d.width) (y % d.height)
      (sprite.take (d.visibleRows y sprite.length)) ↔ d.flips x y sprite px py = true := by
  have hlow : y % d.height < d.height := Nat.mod_lt _ (by omega)
  simp only [mem_footprint, flips, visibleRows, List.length_take, Bool.and_eq_true,
    decide_eq_true_eq]
  constructor
  · rintro ⟨hl, hr, ht, hb, hbit⟩
    rw [List.getD_eq_getElem?_getD, List.getElem?_take, if_pos (by omega),
      ← List.getD_eq_getElem?_getD] at hbit
    exact ⟨⟨⟨⟨hl, by omega⟩, ht⟩, by omega⟩, hbit⟩
  · rintro ⟨⟨⟨⟨hl, hr⟩, ht⟩, hb⟩, hbit⟩
    refine ⟨hl, by omega, ht, by omega, ?_⟩
    rwa [List.getD_eq_getElem?_getD, List.getElem?_take, if_pos (by omega),
      ← List.getD_eq_getElem?_getD]

theorem flips_eq_false (d : Display) (x y : Nat) (sprite : List UInt8) {px py : Nat}
    (h : ¬(px < d.width ∧ py < d.height)) : d.flips x y sprite px py = false := by
  rw [Bool.eq_false_iff]
  intro hf
  simp only [flips, Bool.and_eq_true, decide_eq_true_eq] at hf
  omega

theorem pixel_draw (d : Display) (x y : Nat) (sprite : List UInt8) (px py : Nat) :
    (d.draw x y sprite).1.pixel px py = (d.pixel px py ^^ d.flips x y sprite px py) := by
  by_cases h : px < d.width ∧ py < d.height
  · unfold draw
    rw [pixel_foldl_toggle (nodup_footprint ..) d h.1 h.2]
    congr 1
    rw [Bool.eq_iff_iff, decide_eq_true_eq]
    exact mem_visible_footprint h.1 h.2
  · rw [flips_eq_false d x y sprite h, pixel_eq_false d h, pixel_eq_false _ (by simpa using h)]
    rfl

/-- Rows below the lower edge make no difference to a draw. -/
theorem draw_take_visible (d : Display) (x y : Nat) (sprite : List UInt8) :
    d.draw x y (sprite.take (d.visibleRows y sprite.length)) = d.draw x y sprite := by
  have hrows : d.visibleRows y (sprite.take (d.visibleRows y sprite.length)).length =
      d.visibleRows y sprite.length := by
    rw [List.length_take]
    unfold visibleRows
    omega
  rw [draw, draw, hrows, List.take_take, Nat.min_self]

theorem draw_collides_iff (d : Display) (x y : Nat) (sprite : List UInt8) :
    (d.draw x y sprite).2 = true ↔
      ∃ px py, d.flips x y sprite px py = true ∧ d.pixel px py = true := by
  unfold draw
  simp only [List.any_eq_true, Prod.exists]
  refine exists₂_congr fun px py => ?_
  by_cases h : px < d.width ∧ py < d.height
  · rw [mem_visible_footprint h.1 h.2]
  · simp [pixel_eq_false d h]

end Chip8.Display
