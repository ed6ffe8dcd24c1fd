import Chip8.Hex

/-!
Whole numbers in arguments. A plus sign may stand before the digits; a limit is checked digit by
digit, so of a bad digit and an overflow the one further left is reported.
-/

namespace Chip8.CommandLine

inductive NumberError where
  | noDigits
  | badDigit
  | tooLarge
  | tooSmall
  deriving DecidableEq, Repr

def NumberError.message : NumberError → String
  | noDigits => "cannot parse integer from empty string"
  | badDigit => "invalid digit found in string"
  | tooLarge => "number too large to fit in target type"
  | tooSmall => "number too small to fit in target type"

def digit? (radix : Nat) (c : Char) : Option Nat :=
  match Hex.value? c with
  | some d => if d.val < radix then some d.val else none
  | none => none

/-- Appends digits to `acc`; `overflow` is what a value above `limit` is called. -/
def readDigits (radix limit : Nat) (overflow : NumberError) :
    Nat → List Char → Except NumberError Nat
  | acc, [] => .ok acc
  | acc, c :: cs =>
    match digit? radix c with
    | none => .error .badDigit
    | some d =>
      if acc * radix + d ≤ limit then readDigits radix limit overflow (acc * radix + d) cs
      else .error overflow

/-- A number from zero to `limit`. -/
def readNat (radix limit : Nat) : List Char → Except NumberError Nat
  | [] => .error .noDigits
  | ['+'] => .error .badDigit
  | '+' :: cs => readDigits radix limit .tooLarge 0 cs
  | cs => readDigits radix limit .tooLarge 0 cs

/-- A decimal number from `-bound` up to and without `bound`. -/
def readInt (bound : Nat) : List Char → Except NumberError Int
  | ['-'] => .error .badDigit
  | '-' :: cs => (readDigits 10 bound .tooSmall 0 cs).map fun n => -(n : Int)
  | cs => (readNat 10 (bound - 1) cs).map fun n => (n : Int)

/-- A 16-bit number, in hexadecimal after `0x` and else in decimal. -/
def readWord : List Char → Except NumberError UInt16
  | '0' :: 'x' :: cs | '0' :: 'X' :: cs => (readNat 16 0xFFFF cs).map UInt16.ofNat
  | cs => (readNat 10 0xFFFF cs).map UInt16.ofNat

end Chip8.CommandLine
