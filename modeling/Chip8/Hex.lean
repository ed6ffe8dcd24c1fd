import Chip8.Nibble

/-!
Upper-case hexadecimal text, as listings, dumps and messages write it, and how it is read back.
-/

namespace Chip8

namespace Hex

def digit (d : Nibble) : Char :=
  if d.val < 10 then Char.ofNat (48 + d.val) else Char.ofNat (55 + d.val)

/-- The shortest digits of a number; zero has one. -/
def digits (n : Nat) : List Char :=
  (Nat.toDigits 16 n).map Char.toUpper

/-- At least `width` digits: a shorter number is filled with zeros on the left. -/
def padded (width n : Nat) : List Char :=
  List.replicate (width - (digits n).length) '0' ++ digits n

def byte (b : UInt8) : List Char := padded 2 b.toNat

def text (width n : Nat) : String := String.ofList (padded width n)

/-- The number with its `0x` mark, which is not counted in `width`. -/
def marked (width n : Nat) : String := "0x" ++ text width n

/-- The value of a digit of either case. -/
def value? (c : Char) : Option Nibble :=
  if '0' ≤ c ∧ c ≤ '9' then some (.low (c.toNat - 48))
  else if 'A' ≤ c ∧ c ≤ 'F' then some (.low (c.toNat - 55))
  else if 'a' ≤ c ∧ c ≤ 'f' then some (.low (c.toNat - 87))
  else none

def appendDigit? (n : Nat) (c : Char) : Option Nat := (value? c).map fun d => 16 * n + d.val

/-- The number that some digits spell. -/
def number? (cs : List Char) : Option Nat := cs.foldlM appendDigit? 0

end Hex

def Nibble.text (k : Nibble) : String := (Hex.digit k).toString

end Chip8
