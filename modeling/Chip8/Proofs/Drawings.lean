import Mathlib.Data.Nat.Bits
import Chip8.Proofs.CheckedPicture

/-!
Many drawings on one display. Each flips the pixels under its sprite, so all that counts for a pixel
is whether the number of sprites over it is odd. The order of drawings makes no difference to the
picture, and two that are alike undo each other.
-/

namespace Chip8

/-- A sprite and where it is drawn. -/
structure Drawing where
  x : Nat
  y : Nat
  sprite : List UInt8

namespace Display

def paint (d : Display) (a : Drawing) : Display := (d.draw a.x a.y a.sprite).1

/-- The display after drawings, of which the first comes first. -/
def paintAll (d : Display) (drawings : List Drawing) : Display := drawings.foldl paint d

/-- How many of the drawings have a set bit over a pixel. -/
def layers (d : Display) (drawings : List Drawing) (px py : Nat) : Nat :=
  drawings.countP fun a => d.flips a.x a.y a.sprite px py

variable {d : Display} {drawings drawings' : List Drawing}

@[simp] theorem paintAll_width (d : Display) (drawings : List Drawing) :
    (d.paintAll drawings).width = d.width := by
  induction drawings generalizing d with
  | nil => rfl
  | cons a drawings ih => exact (ih (d.paint a)).trans (draw_width ..)

@[simp] theorem paintAll_height (d : Display) (drawings : List Drawing) :
    (d.paintAll drawings).height = d.height := by
  induction drawings generalizing d with
  | nil => rfl
  | cons a drawings ih => exact (ih (d.paint a)).trans (draw_height ..)

/-- Where a sprite has set bits depends on the size of the screen alone. -/
theorem flips_draw (d : Display) (x y : Nat) (sprite : List UInt8) :
    (d.draw x y sprite).1.flips = d.flips := by
  funext x' y' sprite' px py
  simp only [flips, draw_width, draw_height]

theorem layers_paint (d : Display) (a : Drawing) (drawings : List Drawing) :
    (d.paint a).layers drawings = d.layers drawings := by
  funext px py
  simp only [layers, paint, flips_draw]

theorem pixel_paintAll (d : Display) (drawings : List Drawing) (px py : Nat) :
    (d.paintAll drawings).pixel px py = (d.pixel px py ^^ (d.layers drawings px py).bodd) := by
  induction drawings generalizing d with
  | nil => simp [paintAll, layers]
  | cons a drawings ih =>
    -- The others are drawn on what the first leaves, a display of the same size and layers.
    have hrest := ih (d.paint a)
    rw [layers_paint, paint, pixel_draw] at hrest
    have hlayers : (d.layers (a :: drawings) px py).bodd =
        (d.flips a.x a.y a.sprite px py ^^ (d.layers drawings px py).bodd) := by
      rw [layers, List.countP_cons, Nat.bodd_add, Bool.xor_comm]
      cases d.flips a.x a.y a.sprite px py <;> rfl
    rw [hlayers, ← Bool.xor_assoc]
    exact hrest

/-- Drawings that cover each pixel equally often, up to an even number, make the same picture. -/
theorem paintAll_congr
    (h : ∀ px py, (d.layers drawings px py).bodd = (d.layers drawings' px py).bodd) :
    d.paintAll drawings = d.paintAll drawings' := by
  apply ext_pixel
  · simp
  · simp
  · intro px py
    rw [pixel_paintAll, pixel_paintAll, h]

theorem paintAll_perm (h : drawings.Perm drawings') :
    d.paintAll drawings = d.paintAll drawings' := by
  apply paintAll_congr
  intro px py
  rw [layers, layers, h.countP_eq]

theorem paintAll_cancel (d : Display) (a : Drawing) (before between after : List Drawing) :
    d.paintAll (before ++ a :: (between ++ a :: after)) =
      d.paintAll (before ++ (between ++ after)) := by
  apply paintAll_congr
  intro px py
  simp only [layers, List.countP_append, List.countP_cons, Nat.bodd_add]
  cases d.flips a.x a.y a.sprite px py <;> simp

theorem draw_draw (d : Display) (x y : Nat) (sprite : List UInt8) :
    ((d.draw x y sprite).1.draw x y sprite).1 = d :=
  d.paintAll_cancel ⟨x, y, sprite⟩ [] [] []

/-- Drawn again, a sprite puts out what it has just lit. -/
theorem draw_draw_collides_iff (d : Display) (x y : Nat) (sprite : List UInt8) :
    ((d.draw x y sprite).1.draw x y sprite).2 = true ↔
      ∃ px py, d.flips x y sprite px py = true ∧ d.pixel px py = false := by
  rw [draw_collides_iff]
  refine exists₂_congr fun px py => ?_
  rw [flips_draw, pixel_draw]
  refine and_congr_right fun hflips => ?_
  rw [hflips, Bool.xor_true, Bool.not_eq_true']

/-- The order of drawings makes no difference to a picture, and two that are alike can be left out,
wherever they come. A sprite that is drawn twice in a row is gone again: the first draw collides if
the sprite covers a lit pixel, the second if it covers one that was not lit, and so one of them does
wherever it covers any. -/
theorem drawings_commute_and_cancel (d : Display) :
    (∀ drawings drawings' : List Drawing, drawings.Perm drawings' →
      d.paintAll drawings = d.paintAll drawings') ∧
    (∀ (a : Drawing) (before between after : List Drawing),
      d.paintAll (before ++ a :: (between ++ a :: after)) =
        d.paintAll (before ++ (between ++ after))) ∧
    ∀ x y sprite,
      let first := d.draw x y sprite
      let second := first.1.draw x y sprite
      second.1 = d ∧
        (first.2 = true ↔ ∃ px py, d.Covered x y sprite px py ∧ d.pixel px py = true) ∧
        (second.2 = true ↔ ∃ px py, d.Covered x y sprite px py ∧ d.pixel px py = false) ∧
        (first.2 = true ∨ second.2 = true ↔ ∃ px py, d.Covered x y sprite px py) := by
  refine ⟨fun _ _ h => paintAll_perm h, d.paintAll_cancel, ?_⟩
  intro x y sprite first second
  have hfirst : first.2 = true ↔ ∃ px py, d.Covered x y sprite px py ∧ d.pixel px py = true := by
    simp only [← flips_iff_covered]
    exact draw_collides_iff ..
  have hsecond : second.2 = true ↔
      ∃ px py, d.Covered x y sprite px py ∧ d.pixel px py = false := by
    simp only [← flips_iff_covered]
    exact draw_draw_collides_iff ..
  refine ⟨draw_draw .., hfirst, hsecond, ?_⟩
  rw [hfirst, hsecond]
  constructor
  · rintro (⟨px, py, hcovered, -⟩ | ⟨px, py, hcovered, -⟩) <;> exact ⟨px, py, hcovered⟩
  · rintro ⟨px, py, hcovered⟩
    cases hlit : d.pixel px py with
    | true => exact .inl ⟨px, py, hcovered, hlit⟩
    | false => exact .inr ⟨px, py, hcovered, hlit⟩

/-- A digit of which a corner is on the screen, and a bar across it. -/
def overlapping : List Drawing := [⟨10, 7, [0xF0, 0x90, 0x90]⟩, ⟨3, 1, [0xFF]⟩]

/-- The bar may come first, and after a second bar the digit alone is left. -/
theorem drawings_commute_and_cancel_overlapping :
    (blank 6 3).paintAll overlapping = (blank 6 3).paintAll overlapping.reverse ∧
      (blank 6 3).paintAll (overlapping ++ [⟨3, 1, [0xFF]⟩]) =
        (blank 6 3).paintAll [⟨10, 7, [0xF0, 0x90, 0x90]⟩] ∧
      ((blank 6 3).paintAll overlapping).pixel 3 1 = true ∧
      ((blank 6 3).paintAll overlapping).pixel 4 1 = false := by
  obtain ⟨hperm, hcancel, -⟩ := drawings_commute_and_cancel (blank 6 3)
  refine ⟨?_, ?_, by decide +kernel, by decide +kernel⟩
  · exact hperm _ _ overlapping.reverse_perm.symm
  · exact hcancel ⟨3, 1, [0xFF]⟩ [⟨10, 7, [0xF0, 0x90, 0x90]⟩] [] []

end Display

end Chip8
