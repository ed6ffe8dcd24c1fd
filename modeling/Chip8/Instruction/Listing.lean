import Chip8.Hex
import Chip8.Instruction

/-!
Assembly text. An instruction is written as a mnemonic and operands, and the operands say by their
form what they are.
-/

namespace Chip8

/-- Places that are named by themselves. -/
inductive Place where
  | index
  | memoryAtIndex
  | delayTimer
  | soundTimer
  | key
  | glyph
  | decimal
  deriving DecidableEq, Repr

def Place.text : Place → String
  | index => "I"
  | memoryAtIndex => "[I]"
  | delayTimer => "DT"
  | soundTimer => "ST"
  | key => "K"
  | glyph => "F"
  | decimal => "B"

inductive Operand where
  | register (x : Nibble)
  | byte (nn : UInt8)
  | address (nnn : Address)
  | rowCount (n : Nibble)
  | place (p : Place)
  | word (w : UInt16)
  deriving DecidableEq, Repr

def Operand.text : Operand → String
  | register x => "V" ++ x.text
  | byte nn => Hex.marked 2 nn.toNat
  | address nnn => Hex.marked 3 nnn.val
  | rowCount n => n.text
  | place p => p.text
  | word w => Hex.marked 4 w.toNat

structure AssemblyLine where
  mnemonic : String
  operands : List Operand
  deriving DecidableEq, Repr

def AssemblyLine.text (line : AssemblyLine) : String :=
  match line.operands with
  | [] => line.mnemonic
  | operands => line.mnemonic ++ " " ++ ", ".intercalate (operands.map Operand.text)

namespace Instruction

def assembly : Instruction → AssemblyLine
  | clearScreen => ⟨"CLS", []⟩
  | ret => ⟨"RET", []⟩
  | jump nnn => ⟨"JP", [.address nnn]⟩
  | call nnn => ⟨"CALL", [.address nnn]⟩
  | skipEqByte x nn => ⟨"SE", [.register x, .byte nn]⟩
  | skipNeByte x nn => ⟨"SNE", [.register x, .byte nn]⟩
  | skipEqRegister x y => ⟨"SE", [.register x, .register y]⟩
  | loadByte x nn => ⟨"LD", [.register x, .byte nn]⟩
  | addByte x nn => ⟨"ADD", [.register x, .byte nn]⟩
  | alu x y op => ⟨op.mnemonic, [.register x, .register y]⟩
  | skipNeRegister x y => ⟨"SNE", [.register x, .register y]⟩
  | loadIndex nnn => ⟨"LD", [.place .index, .address nnn]⟩
  | jumpOffset nnn => ⟨"JP", [.register 0, .address nnn]⟩
  | random x nn => ⟨"RND", [.register x, .byte nn]⟩
  | draw x y n => ⟨"DRW", [.register x, .register y, .rowCount n]⟩
  | skipKeyDown x => ⟨"SKP", [.register x]⟩
  | skipKeyUp x => ⟨"SKNP", [.register x]⟩
  | readDelay x => ⟨"LD", [.register x, .place .delayTimer]⟩
  | awaitKey x => ⟨"LD", [.register x, .place .key]⟩
  | setDelay x => ⟨"LD", [.place .delayTimer, .register x]⟩
  | setSound x => ⟨"LD", [.place .soundTimer, .register x]⟩
  | addIndex x => ⟨"ADD", [.place .index, .register x]⟩
  | loadGlyph x => ⟨"LD", [.place .glyph, .register x]⟩
  | storeDecimal x => ⟨"LD", [.place .decimal, .register x]⟩
  | saveRegisters x => ⟨"LD", [.place .memoryAtIndex, .register x]⟩
  | restoreRegisters x => ⟨"LD", [.register x, .place .memoryAtIndex]⟩
  | unknown word => ⟨"DW", [.word word]⟩

def text (i : Instruction) : String := i.assembly.text

end Instruction

end Chip8
