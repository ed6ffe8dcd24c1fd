import Chip8.Text.Cluster
import Chip8.Text.Width

/-!
Text in character cells. A glyph is a cluster with the cells it fills.
-/

namespace Chip8

structure Glyph where
  text : String
  width : Nat
  deriving DecidableEq, Repr

namespace Glyph

def isControl (c : Char) : Bool := c.toNat < 0x20 || (0x7F ≤ c.toNat && c.toNat < 0xA0)

def ofCluster (cluster : List Char) : Glyph := ⟨String.ofList cluster, Text.width cluster⟩

/-- The glyphs of a line. A control character has none, nor has a mark that stands alone. -/
def ofLine (line : List Char) : List Glyph :=
  let visible := (Text.clusters line).filter fun cluster => !cluster.any isControl
  (visible.map ofCluster).filter fun g => g.width ≠ 0

/-- What its cells show: all of it the first one, and the others nothing. -/
def cells (g : Glyph) : List String :=
  if g.width = 0 then [] else g.text :: List.replicate (g.width - 1) " "

@[simp] theorem length_cells (g : Glyph) : g.cells.length = g.width := by
  unfold cells
  split
  · simp [*]
  · simp only [List.length_cons, List.length_replicate]
    omega

/-- The cells of as many glyphs as there is room for. -/
def fill : Nat → List Glyph → List String
  | _, [] => []
  | room, g :: glyphs =>
    if g.width ≤ room then g.cells ++ fill (room - g.width) glyphs else []

/-- Cuts a line to `width` cells. A glyph wider than that is passed over. -/
def clip (width : Nat) (glyphs : List Glyph) : List String :=
  fill width (glyphs.filter fun g => g.width ≤ width)

theorem length_fill_le (room : Nat) (glyphs : List Glyph) : (fill room glyphs).length ≤ room := by
  induction glyphs generalizing room with
  | nil => simp [fill]
  | cons g glyphs ih =>
    simp only [fill]
    split
    · simp only [List.length_append, length_cells]
      have := ih (room - g.width)
      omega
    · simp

theorem length_clip_le (width : Nat) (glyphs : List Glyph) :
    (clip width glyphs).length ≤ width :=
  length_fill_le _ _

end Glyph

end Chip8
