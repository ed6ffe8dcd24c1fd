import Chip8.Block
import Chip8.Nibble

/-!
The sixteen keys.
-/

namespace Chip8

@[ext] structure Keypad where
  down : Vector Bool 16
  deriving DecidableEq

namespace Keypad

def idle : Keypad := ⟨Vector.replicate 16 false⟩

def isDown (pad : Keypad) (k : Nibble) : Bool := pad.down.get k

def set (pad : Keypad) (k : Nibble) (pressed : Bool) : Keypad := ⟨setAt pad.down k pressed⟩

/-- Setting `k` is a key-down edge: it was up and is pressed now. -/
def isEdge (pad : Keypad) (k : Nibble) (pressed : Bool) : Bool := pressed && !pad.isDown k

def downKeys (pad : Keypad) : List Nibble := (List.finRange 16).filter pad.isDown

@[simp] theorem isDown_set (pad : Keypad) (k j : Nibble) (pressed : Bool) :
    (pad.set k pressed).isDown j = if k = j then pressed else pad.isDown j :=
  get_setAt pad.down k j pressed

@[simp] theorem isDown_idle (k : Nibble) : idle.isDown k = false :=
  Vector.getElem_replicate ..

/-- Only the last setting of a key counts. -/
theorem set_set (pad : Keypad) (k : Nibble) (before pressed : Bool) :
    (pad.set k before).set k pressed = pad.set k pressed :=
  Keypad.ext (Vector.set_set _ k.isLt)

theorem set_isDown (pad : Keypad) (k : Nibble) : pad.set k (pad.isDown k) = pad :=
  Keypad.ext (Vector.set_getElem_self k.isLt)

/-- A release is no key-down edge, and neither is the press of a key that is down. -/
theorem isEdge_eq_false {pad : Keypad} {k : Nibble} {pressed : Bool}
    (h : pressed = true → pad.isDown k = true) : pad.isEdge k pressed = false := by
  cases pressed with
  | false => rfl
  | true => rw [isEdge, h rfl]; rfl

theorem mem_downKeys {pad : Keypad} {k : Nibble} : k ∈ pad.downKeys ↔ pad.isDown k = true := by
  simp [downKeys]

end Keypad

end Chip8
