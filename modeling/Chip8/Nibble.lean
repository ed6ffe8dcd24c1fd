/-!
Four-bit values. A nibble names a register, a key or a glyph.
-/

namespace Chip8

abbrev Nibble := Fin 16

namespace Nibble

/-- The literals of nibbles rest on this. -/
instance neZero : @NeZero Nat Zero.ofOfNat0 16 := ⟨by decide⟩

/-- The low four bits. -/
def low (n : Nat) : Nibble := Fin.ofNat 16 n

/-- A byte that is a nibble as it stands. -/
def ofByte? (b : UInt8) : Option Nibble :=
  if h : b.toNat < 16 then some ⟨b.toNat, h⟩ else none

def toByte (k : Nibble) : UInt8 := UInt8.ofNat k.val

def max : Nibble := 15

/-- All nibbles up to and including `k`, ascending. -/
def upTo (k : Nibble) : List Nibble := (List.finRange 16).filter (· ≤ k)

end Nibble

end Chip8
