import Chip8.Block

/-!
The monochrome display. A sprite is a byte per row, its highest bit leftmost, and it flips the
cells under its set bits. The origin wraps round the screen, the body is clipped at the right and
lower edges.
-/

namespace Chip8

structure Display where
  width : Nat
  height : Nat
  /-- Row by row, top to bottom. -/
  cells : Vector Bool (width * height)

namespace Display

def blank (width height : Nat) : Display :=
  ⟨width, height, Vector.replicate (width * height) false⟩

theorem index_lt {width height x y : Nat} (hx : x < width) (hy : y < height) :
    y * width + x < width * height := by
  have h := Nat.mul_le_mul_right width (Nat.succ_le_of_lt hy)
  rw [Nat.succ_mul, Nat.mul_comm height] at h
  omega

/-- Whether a cell is lit. Outside the screen nothing is. -/
def pixel (d : Display) (x y : Nat) : Bool :=
  if h : x < d.width ∧ y < d.height then d.cells.get ⟨y * d.width + x, index_lt h.1 h.2⟩ else false

/-- The cells of row `y`, left to right. -/
def row (d : Display) (y : Nat) : List Bool :=
  (d.cells.extract (y * d.width) (y * d.width + d.width)).toList

def rows (d : Display) : List (List Bool) := (List.range d.height).map d.row

def isBlank (d : Display) : Bool := d.cells.all (! ·)

def clear (d : Display) : Display :=
  { d with cells := Vector.replicate (d.width * d.height) false }

/-- Flips one cell; outside the screen there is none to flip. -/
def toggle (d : Display) (p : Nat × Nat) : Display :=
  if h : p.1 < d.width ∧ p.2 < d.height then
    { d with
      cells := setAt d.cells ⟨p.2 * d.width + p.1, index_lt h.1 h.2⟩ (!d.pixel p.1 p.2) }
  else d

/-- Column `col` of a sprite row, counted from the left. -/
def spriteBit (bits : UInt8) (col : Nat) : Bool := bits.toNat.testBit (7 - col)

/-- The cells under the set bits of a sprite whose upper left corner is at `(x, y)`. -/
def footprint (x y : Nat) : List UInt8 → List (Nat × Nat)
  | [] => []
  | bits :: sprite =>
    ((List.range 8).filter (spriteBit bits)).map (fun col => (x + col, y))
      ++ footprint x (y + 1) sprite

/-- How many of `count` sprite rows drawn at `y` land on the screen. -/
def visibleRows (d : Display) (y count : Nat) : Nat := min count (d.height - y % d.height)

/-- The display after drawing, and whether a lit cell was put out. -/
def draw (d : Display) (x y : Nat) (sprite : List UInt8) : Display × Bool :=
  let visible := sprite.take (d.visibleRows y sprite.length)
  let touched := footprint (x % d.width) (y % d.height) visible
  (touched.foldl toggle d, touched.any fun p => d.pixel p.1 p.2)

theorem pixel_eq_false (d : Display) {x y : Nat} (h : ¬(x < d.width ∧ y < d.height)) :
    d.pixel x y = false := by
  rw [pixel, dif_neg h]

theorem pixel_eq_get (d : Display) {x y : Nat} (hx : x < d.width) (hy : y < d.height) :
    d.pixel x y = d.cells.get ⟨y * d.width + x, index_lt hx hy⟩ := by
  rw [pixel, dif_pos ⟨hx, hy⟩]

@[simp] theorem pixel_blank (width height x y : Nat) : (blank width height).pixel x y = false := by
  rw [pixel]
  split
  · exact Vector.getElem_replicate ..
  · rfl

theorem index_inj {width x y x' y' : Nat} (hx : x < width) (hx' : x' < width)
    (h : y * width + x = y' * width + x') : x = x' ∧ y = y' := by
  have hxx : x = x' := by
    have := congrArg (· % width) h
    simpa [Nat.mul_add_mod_of_lt, Nat.mod_eq_of_lt, hx, hx', Nat.add_comm] using this
  subst hxx
  have hy : y * width = y' * width := by omega
  exact ⟨rfl, Nat.eq_of_mul_eq_mul_right (by omega) hy⟩

@[simp] theorem toggle_width (d : Display) (p : Nat × Nat) : (d.toggle p).width = d.width := by
  unfold toggle; split <;> rfl

@[simp] theorem toggle_height (d : Display) (p : Nat × Nat) : (d.toggle p).height = d.height := by
  unfold toggle; split <;> rfl

/-- Flipping a cell changes that pixel and no other. -/
theorem pixel_toggle (d : Display) (p : Nat × Nat) (x y : Nat) :
    (d.toggle p).pixel x y =
      if p = (x, y) ∧ x < d.width ∧ y < d.height then !d.pixel x y else d.pixel x y := by
  by_cases hp : p.1 < d.width ∧ p.2 < d.height
  · by_cases hxy : x < d.width ∧ y < d.height
    · rw [toggle, dif_pos hp, pixel, dif_pos hxy]
      change (setAt d.cells ⟨p.2 * d.width + p.1, index_lt hp.1 hp.2⟩ (!d.pixel p.1 p.2)).get
        ⟨y * d.width + x, index_lt hxy.1 hxy.2⟩ = _
      rw [get_setAt, ← pixel_eq_get d hxy.1 hxy.2]
      by_cases he : p = (x, y)
      · subst he
        rw [if_pos rfl, if_pos ⟨rfl, hxy⟩]
      · have hi : p.2 * d.width + p.1 ≠ y * d.width + x := fun hi =>
          have h := index_inj hp.1 hxy.1 hi
          he (Prod.ext h.1 h.2)
        rw [if_neg (fun h => hi (Fin.mk.inj h)), if_neg (fun h => he h.1)]
    · rw [if_neg (fun h => hxy h.2), pixel_eq_false d hxy, pixel_eq_false]
      simpa using hxy
  · rw [toggle, dif_neg hp, if_neg]
    rintro ⟨rfl, h⟩
    exact hp h

/-- A display is its size and its pixels. -/
theorem ext_pixel {d e : Display} (hw : d.width = e.width) (hh : d.height = e.height)
    (h : ∀ x y, d.pixel x y = e.pixel x y) : d = e := by
  obtain ⟨width, height, cells⟩ := d
  obtain ⟨_, _, cells'⟩ := e
  obtain rfl : width = _ := hw
  obtain rfl : height = _ := hh
  congr 1
  ext i hi
  have hpos : 0 < width := Nat.pos_of_ne_zero fun h0 => by simp [h0] at hi
  have hx := Nat.mod_lt i hpos
  have hy : i / width < height := Nat.div_lt_of_lt_mul hi
  have hxy := h (i % width) (i / width)
  rw [pixel_eq_get _ hx hy, pixel_eq_get _ hx hy] at hxy
  have hdiv : i / width * width + i % width = i := Nat.div_add_mod' i width
  simp only [hdiv] at hxy
  exact hxy

end Display

end Chip8
