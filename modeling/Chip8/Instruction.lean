import Chip8.Alu
import Chip8.Nibble

/-!
The instruction set, and how a 16-bit word is decoded into it.
-/

namespace Chip8

/-- The twelve-bit operand of jumps, calls and index loads. -/
abbrev Address := Fin 4096

/-- The four digits of an instruction word, the highest first. -/
structure Fields where
  op : Nibble
  x : Nibble
  y : Nibble
  n : Nibble
  deriving DecidableEq, Repr

namespace Fields

def ofWord (w : UInt16) : Fields :=
  ⟨.low (w.toNat / 0x1000), .low (w.toNat / 0x100), .low (w.toNat / 0x10), .low w.toNat⟩

def toWord (f : Fields) : UInt16 :=
  UInt16.ofNat (0x1000 * f.op.val + 0x100 * f.x.val + 0x10 * f.y.val + f.n.val)

@[simp] theorem toWord_ofWord (w : UInt16) : (ofWord w).toWord = w := by
  apply UInt16.toNat_inj.mp
  have h := w.toNat_lt
  simp only [toWord, ofWord, Nibble.low, Fin.ofNat, UInt16.toNat_ofNat']
  omega

@[simp] theorem ofWord_toWord (f : Fields) : ofWord f.toWord = f := by
  obtain ⟨op, x, y, n⟩ := f
  simp only [toWord, ofWord, Nibble.low, Fin.ofNat, UInt16.toNat_ofNat', Fields.mk.injEq,
    Fin.ext_iff]
  omega

/-- The two lowest digits. -/
def nn (f : Fields) : UInt8 := UInt8.ofNat (0x10 * f.y.val + f.n.val)

/-- The three lowest digits. -/
def nnn (f : Fields) : Address := Fin.ofNat 4096 (0x100 * f.x.val + 0x10 * f.y.val + f.n.val)

end Fields

inductive Instruction where
  | clearScreen
  | ret
  | jump (nnn : Address)
  | call (nnn : Address)
  | skipEqByte (x : Nibble) (nn : UInt8)
  | skipNeByte (x : Nibble) (nn : UInt8)
  | skipEqRegister (x y : Nibble)
  | loadByte (x : Nibble) (nn : UInt8)
  | addByte (x : Nibble) (nn : UInt8)
  | alu (x y : Nibble) (op : AluOp)
  | skipNeRegister (x y : Nibble)
  | loadIndex (nnn : Address)
  | jumpOffset (nnn : Address)
  | random (x : Nibble) (nn : UInt8)
  | draw (x y n : Nibble)
  | skipKeyDown (x : Nibble)
  | skipKeyUp (x : Nibble)
  | readDelay (x : Nibble)
  | awaitKey (x : Nibble)
  | setDelay (x : Nibble)
  | setSound (x : Nibble)
  | addIndex (x : Nibble)
  | loadGlyph (x : Nibble)
  | storeDecimal (x : Nibble)
  | saveRegisters (x : Nibble)
  | restoreRegisters (x : Nibble)
  | unknown (word : UInt16)
  deriving DecidableEq, Repr

/-- The operation that the lowest digit of `8xyN` selects. -/
def AluOp.ofNibble? (n : Nibble) : Option AluOp :=
  match n.val with
  | 0x0 => some .mov
  | 0x1 => some .or
  | 0x2 => some .and
  | 0x3 => some .xor
  | 0x4 => some .add
  | 0x5 => some .sub
  | 0x6 => some .shr
  | 0x7 => some .subn
  | 0xE => some .shl
  | _ => none

namespace Instruction

/-- The instruction `FxNN` that the two lowest digits select. -/
def ofMisc? (x : Nibble) (nn : UInt8) : Option Instruction :=
  match nn.toNat with
  | 0x07 => some (.readDelay x)
  | 0x0A => some (.awaitKey x)
  | 0x15 => some (.setDelay x)
  | 0x18 => some (.setSound x)
  | 0x1E => some (.addIndex x)
  | 0x29 => some (.loadGlyph x)
  | 0x33 => some (.storeDecimal x)
  | 0x55 => some (.saveRegisters x)
  | 0x65 => some (.restoreRegisters x)
  | _ => none

def ofFields? (f : Fields) : Option Instruction :=
  match f.op.val with
  | 0x0 =>
    if f.x = 0 ∧ f.y = 0xE ∧ f.n = 0 then some .clearScreen
    else if f.x = 0 ∧ f.y = 0xE ∧ f.n = 0xE then some .ret
    else none
  | 0x1 => some (.jump f.nnn)
  | 0x2 => some (.call f.nnn)
  | 0x3 => some (.skipEqByte f.x f.nn)
  | 0x4 => some (.skipNeByte f.x f.nn)
  | 0x5 => if f.n = 0 then some (.skipEqRegister f.x f.y) else none
  | 0x6 => some (.loadByte f.x f.nn)
  | 0x7 => some (.addByte f.x f.nn)
  | 0x8 => (AluOp.ofNibble? f.n).map (.alu f.x f.y)
  | 0x9 => if f.n = 0 then some (.skipNeRegister f.x f.y) else none
  | 0xA => some (.loadIndex f.nnn)
  | 0xB => some (.jumpOffset f.nnn)
  | 0xC => some (.random f.x f.nn)
  | 0xD => some (.draw f.x f.y f.n)
  | 0xE =>
    if f.nn = 0x9E then some (.skipKeyDown f.x)
    else if f.nn = 0xA1 then some (.skipKeyUp f.x)
    else none
  | _ => ofMisc? f.x f.nn

def decode (w : UInt16) : Instruction := (ofFields? (.ofWord w)).getD (.unknown w)

end Instruction

end Chip8
