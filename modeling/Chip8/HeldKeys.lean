import Chip8.Block
import Chip8.Nibble

/-!
Keys of a terminal, which reports presses and no releases. A key counts as held until it has been
quiet for a while. Times are in nanoseconds.
-/

namespace Chip8

structure HeldKeys where
  pressedAt : Vector (Option Nat) 16
  deriving DecidableEq

namespace HeldKeys

def none : HeldKeys := ⟨Vector.replicate 16 .none⟩

/-- How long a press lasts. -/
def hold : Nat := 50000000

def press (held : HeldKeys) (k : Nibble) (now : Nat) : HeldKeys :=
  ⟨setAt held.pressedAt k (some now)⟩

def isHeld (held : HeldKeys) (k : Nibble) : Bool := (held.pressedAt.get k).isSome

/-- A press in the future has lasted no time. -/
def isExpired (held : HeldKeys) (now : Nat) (k : Nibble) : Bool :=
  match held.pressedAt.get k with
  | some pressed => hold < now - pressed
  | .none => false

/-- The keys that have been quiet for too long, ascending, and the others. -/
def expire (held : HeldKeys) (now : Nat) : List Nibble × HeldKeys :=
  ((List.finRange 16).filter (held.isExpired now),
    ⟨Vector.ofFn fun k => if held.isExpired now k then .none else held.pressedAt.get k⟩)

def keys (held : HeldKeys) : List Nibble := (List.finRange 16).filter held.isHeld

theorem pressedAt_press (held : HeldKeys) (k j : Nibble) (now : Nat) :
    (held.press k now).pressedAt.get j = if k = j then some now else held.pressedAt.get j :=
  get_setAt ..

theorem mem_expire {held : HeldKeys} {now : Nat} {k : Nibble} :
    k ∈ (held.expire now).1 ↔ held.isExpired now k = true := by
  simp [expire]

theorem pressedAt_expire (held : HeldKeys) (now : Nat) (k : Nibble) :
    (held.expire now).2.pressedAt.get k =
      if held.isExpired now k then .none else held.pressedAt.get k :=
  Vector.getElem_ofFn ..

@[simp] theorem isHeld_press (held : HeldKeys) (k j : Nibble) (now : Nat) :
    (held.press k now).isHeld j = (k == j || held.isHeld j) := by
  simp only [isHeld, press, get_setAt]
  split <;> simp_all

end HeldKeys

end Chip8
