/-!
Sets of characters, given as ascending ranges of code points.
-/

namespace Chip8.Text

/-- First and last code point of each range. -/
abbrev CodePoints := List (Nat × Nat)

/-- Whether a range holds the character. No range after one that starts above it is looked at. -/
def within (c : Char) : CodePoints → Bool
  | [] => false
  | (first, last) :: ranges =>
    if c.toNat < first then false else c.toNat ≤ last || within c ranges

end Chip8.Text
