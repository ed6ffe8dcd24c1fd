import Chip8.Nibble

/-!
The face of the keypad, and the block of a keyboard that stands for it.
-/

namespace Chip8.KeypadLayout

def face : List (List Nibble) :=
  [ [0x1, 0x2, 0x3, 0xC],
    [0x4, 0x5, 0x6, 0xD],
    [0x7, 0x8, 0x9, 0xE],
    [0xA, 0x0, 0xB, 0xF] ]

/-- The keyboard keys in the places of the face. -/
def keyboard : List (List Char) :=
  [ ['1', '2', '3', '4'],
    ['q', 'w', 'e', 'r'],
    ['a', 's', 'd', 'f'],
    ['z', 'x', 'c', 'v'] ]

def assignment : List (Char × Nibble) := keyboard.flatten.zip face.flatten

/-- The key of a typed character, of either case. -/
def ofChar? (c : Char) : Option Nibble := assignment.lookup c.toLower

/-- The name of a keyboard key by its place on a standard keyboard. -/
def codeName (c : Char) : String :=
  if c.isDigit then "Digit" ++ c.toString else "Key" ++ c.toUpper.toString

/-- The key at a place of the keyboard, whatever letter is printed there. -/
def ofCode? (name : String) : Option Nibble :=
  (assignment.map fun (c, k) => (codeName c, k)).lookup name

end Chip8.KeypadLayout
