/-!
Decimal fractions in arguments, rounded to single precision.
-/

namespace Chip8.CommandLine

inductive DecimalError where
  | empty
  | malformed
  deriving DecidableEq, Repr

def DecimalError.message : DecimalError → String
  | empty => "cannot parse float from empty string"
  | malformed => "invalid float literal"

/-- The magnitude `digits * 10 ^ exponent`. -/
structure Decimal where
  digits : Nat
  exponent : Int
  deriving DecidableEq, Repr

namespace Decimal

/-- The nearest single-precision number. Ten to the 39th is past the largest of them, and ten to
the -46th is less than half the smallest. -/
def toFloat32 (d : Decimal) : Float32 :=
  let size : Int := (Nat.toDigits 10 d.digits).length + d.exponent
  if d.digits = 0 ∨ size ≤ -46 then 0
  else if 40 ≤ size then 1 / 0
  else Float32.ofScientific d.digits (d.exponent < 0) d.exponent.natAbs

end Decimal

private def number (ds : List Char) : Nat := Nat.ofDigitChars 10 ds 0

/-- What stands after the digits: nothing, or `e`, a sign if need be, and digits. -/
private def exponent? : List Char → Option Int
  | [] => some 0
  | e :: cs =>
    if e = 'e' ∨ e = 'E' then
      let (negative, ds) := match cs with
        | '-' :: ds => (true, ds)
        | '+' :: ds => (false, ds)
        | ds => (false, ds)
      if ds.isEmpty ∨ !ds.all Char.isDigit then none
      else some (if negative then -(number ds : Int) else number ds)
    else none

/-- Digits with a point before, among or after them, and an exponent. -/
private def magnitude? (cs : List Char) : Option Decimal :=
  let (whole, cs) := cs.span Char.isDigit
  let (fraction, cs) := match cs with
    | '.' :: cs => cs.span Char.isDigit
    | cs => ([], cs)
  if whole.isEmpty ∧ fraction.isEmpty then none
  else (exponent? cs).map fun e => ⟨number (whole ++ fraction), e - fraction.length⟩

private def unsigned? (cs : List Char) : Option Float32 :=
  let name := String.ofList (cs.map Char.toLower)
  if name = "inf" ∨ name = "infinity" then some (1 / 0)
  else if name = "nan" then some (0 / 0)
  else (magnitude? cs).map Decimal.toFloat32

/-- A number with an optional sign; infinities and NaN have names. -/
def readFloat : List Char → Except DecimalError Float32
  | [] => .error .empty
  | c :: cs =>
    let value := match c with
      | '-' => (unsigned? cs).map fun x => -x
      | '+' => unsigned? cs
      | _ => unsigned? (c :: cs)
    match value with
    | some x => .ok x
    | none => .error .malformed

end Chip8.CommandLine
