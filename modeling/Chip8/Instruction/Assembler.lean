import Chip8.Instruction.Encoding
import Chip8.Instruction.Listing

/-!
Assembly text read back into the instruction it stands for, and so into a word.
-/

namespace Chip8

def AluOp.ofMnemonic? (mnemonic : String) : Option AluOp :=
  [mov, or, and, xor, add, sub, shr, subn, shl].find? fun op => op.mnemonic = mnemonic

def Place.ofText? (text : String) : Option Place :=
  [index, memoryAtIndex, delayTimer, soundTimer, key, glyph, decimal].find? fun p => p.text = text

namespace Operand

/-- The value after a `0x` mark. How many digits it has says what it is. -/
def ofNumber? (width n : Nat) : Option Operand :=
  match width with
  | 2 => some (.byte (UInt8.ofNat n))
  | 3 => if h : n < 4096 then some (.address ⟨n, h⟩) else none
  | 4 => some (.word (UInt16.ofNat n))
  | _ => none

/-- What a text is as an operand. A single letter may be a row count, where a sprite is drawn, or a
place, anywhere else. -/
def ofText? (drawing : Bool) : List Char → Option Operand
  | ['V', x] => (Hex.value? x).map .register
  | '0' :: 'x' :: digits => (Hex.number? digits).bind (ofNumber? digits.length)
  | cs =>
    if drawing then
      match cs with
      | [n] => (Hex.value? n).map .rowCount
      | _ => none
    else (Place.ofText? (String.ofList cs)).map .place

end Operand

namespace AssemblyLine

/-- A line of a mnemonic and what comes after it, where the operands have commas between them. -/
def ofParts? (mnemonic : String) : List Char → Option AssemblyLine
  | [] => some ⟨mnemonic, []⟩
  | rest =>
    ((rest.splitOn ',').mapM fun piece =>
      Operand.ofText? (mnemonic = "DRW") (piece.dropWhile (· == ' '))).map (⟨mnemonic, ·⟩)

/-- The mnemonic goes up to the first blank. -/
def ofText? (text : String) : Option AssemblyLine :=
  ofParts? (String.ofList (text.toList.takeWhile (· != ' '))) (text.toList.dropWhile (· != ' '))

end AssemblyLine

namespace Instruction

def ofAssembly? (line : AssemblyLine) : Option Instruction :=
  match line.mnemonic, line.operands with
  | "CLS", [] => some .clearScreen
  | "RET", [] => some .ret
  | "JP", [.address nnn] => some (.jump nnn)
  | "JP", [.register x, .address nnn] => if x = 0 then some (.jumpOffset nnn) else none
  | "CALL", [.address nnn] => some (.call nnn)
  | "SE", [.register x, .byte nn] => some (.skipEqByte x nn)
  | "SE", [.register x, .register y] => some (.skipEqRegister x y)
  | "SNE", [.register x, .byte nn] => some (.skipNeByte x nn)
  | "SNE", [.register x, .register y] => some (.skipNeRegister x y)
  | "LD", [.register x, .byte nn] => some (.loadByte x nn)
  | "LD", [.place .index, .address nnn] => some (.loadIndex nnn)
  | "LD", [.register x, .place .delayTimer] => some (.readDelay x)
  | "LD", [.register x, .place .key] => some (.awaitKey x)
  | "LD", [.register x, .place .memoryAtIndex] => some (.restoreRegisters x)
  | "LD", [.place .delayTimer, .register x] => some (.setDelay x)
  | "LD", [.place .soundTimer, .register x] => some (.setSound x)
  | "LD", [.place .glyph, .register x] => some (.loadGlyph x)
  | "LD", [.place .decimal, .register x] => some (.storeDecimal x)
  | "LD", [.place .memoryAtIndex, .register x] => some (.saveRegisters x)
  | "ADD", [.register x, .byte nn] => some (.addByte x nn)
  | "ADD", [.place .index, .register x] => some (.addIndex x)
  | "RND", [.register x, .byte nn] => some (.random x nn)
  | "DRW", [.register x, .register y, .rowCount n] => some (.draw x y n)
  | "SKP", [.register x] => some (.skipKeyDown x)
  | "SKNP", [.register x] => some (.skipKeyUp x)
  | "DW", [.word w] => some (.unknown w)
  | mnemonic, [.register x, .register y] => (AluOp.ofMnemonic? mnemonic).map (.alu x y)
  | _, _ => none

def ofText? (text : String) : Option Instruction := (AssemblyLine.ofText? text).bind ofAssembly?

/-- The word that a line of assembly text stands for. -/
def assemble? (text : String) : Option UInt16 := (ofText? text).map encode

end Instruction

end Chip8
