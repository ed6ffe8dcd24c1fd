/-!
The arithmetic and logic operations on two register values.
-/

namespace Chip8

inductive AluOp where
  | mov
  | or
  | and
  | xor
  | add
  | sub
  | shr
  | subn
  | shl
  deriving DecidableEq, Repr

structure AluResult where
  value : UInt8
  /-- What goes to VF, for an operation that defines it. -/
  flag : Option Bool
  deriving DecidableEq, Repr

namespace AluOp

def mnemonic : AluOp → String
  | mov => "LD"
  | or => "OR"
  | and => "AND"
  | xor => "XOR"
  | add => "ADD"
  | sub => "SUB"
  | shr => "SHR"
  | subn => "SUBN"
  | shl => "SHL"

/-- Differences raise the flag when they do not borrow and are not zero, shifts when the bit they
drop is set. -/
def eval (op : AluOp) (vx vy : UInt8) : AluResult :=
  match op with
  | mov => ⟨vy, none⟩
  | or => ⟨vx ||| vy, none⟩
  | and => ⟨vx &&& vy, none⟩
  | xor => ⟨vx ^^^ vy, none⟩
  | add => ⟨vx + vy, some (255 < vx.toNat + vy.toNat)⟩
  | sub => ⟨vx - vy, some (vy < vx)⟩
  | subn => ⟨vy - vx, some (vx < vy)⟩
  | shr => ⟨vx >>> 1, some (vx &&& 1 = 1)⟩
  | shl => ⟨vx <<< 1, some (128 ≤ vx)⟩

end AluOp

end Chip8
