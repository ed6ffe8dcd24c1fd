import Chip8.Machine.Step

/-!
The instruction table in plain numbers. `Row` has what each instruction makes of a state,
`outcome` what its host is told, `Fails` when it cannot be carried out. Operands are read from the
state before the instruction, whatever it writes to.
-/

namespace Chip8

namespace Table

/-- A machine whose registers and memory are numbers. Outside memory every byte is 0, outside the
screen every pixel is off. -/
structure State where
  config : Config
  font : Font
  rom : List UInt8
  memory : Nat → Nat
  width : Nat
  height : Nat
  pixel : Nat → Nat → Bool
  pc : Nat
  index : Nat
  v : Nibble → Nat
  /-- The innermost call comes first. -/
  stack : List Nat
  depth : Nat
  delay : Nat
  sound : Nat
  down : Nibble → Bool
  awaiting : Option Nibble
  fault : Option Fault
  random : RandomStream

namespace State

variable (s : State)

/-- The word at the program counter, its high byte first. -/
def word : Nat := 256 * s.memory s.pc + s.memory (s.pc + 1)

/-- On to the next instruction. -/
def next : State := { s with pc := s.pc + 2 }

def skipIf (condition : Bool) : State := { s with pc := if condition then s.pc + 4 else s.pc + 2 }

def set (x : Nibble) (n : Nat) : State := { s with v := fun r => if r = x then n else s.v r }

/-- An operation that defines the flag leaves it in VF, even when `x` is F. -/
def setWithFlag (x : Nibble) (n flag : Nat) : State := (s.set x n).set 0xF flag

/-- Whether the key named by register `x` is down. No key has a number above 15. -/
def keyDown (x : Nibble) : Prop := ∃ k : Nibble, k.val = s.v x ∧ s.down k = true

/-- The rows of an `n`-row sprite at height `Vy` that are on the screen. -/
def visibleRows (y n : Nibble) : Nat := min n.val (s.height - s.v y % s.height)

/-- Whether the sprite of a draw has a set bit over pixel `(px, py)`. The origin wraps round the
screen, the body is clipped. -/
def covers (x y n : Nibble) (px py : Nat) : Bool :=
  s.v x % s.width ≤ px && px < s.v x % s.width + 8 && px < s.width &&
    s.v y % s.height ≤ py && py < s.v y % s.height + n.val && py < s.height &&
    (s.memory (s.index + (py - s.v y % s.height))).testBit (7 - (px - s.v x % s.width))

/-- How many bytes from the index register on an instruction reads or writes. -/
def accesses : Instruction → Option Nat
  | .draw _ y n => some (s.visibleRows y n)
  | .storeDecimal _ => some 3
  | .saveRegisters x => some (x.val + 1)
  | .restoreRegisters x => some (x.val + 1)
  | _ => none

end State

def outcome : Instruction → Outcome
  | .clearScreen | .draw .. => .drew
  | .awaitKey x => .waiting x
  | _ => .advanced

inductive Row (s : State) : Instruction → State → Prop
  | clearScreen : Row s .clearScreen { s.next with pixel := fun _ _ => false }
  | ret {a : Nat} {rest : List Nat} (h : s.stack = a :: rest) :
      Row s .ret { s with pc := a, stack := rest }
  | jump {nnn : Address} : Row s (.jump nnn) { s with pc := nnn.val }
  | call {nnn : Address} :
      Row s (.call nnn) { s with pc := nnn.val, stack := (s.pc + 2) :: s.stack }
  | skipEqByte {x : Nibble} {nn : UInt8} :
      Row s (.skipEqByte x nn) (s.skipIf (s.v x = nn.toNat))
  | skipNeByte {x : Nibble} {nn : UInt8} :
      Row s (.skipNeByte x nn) (s.skipIf (s.v x ≠ nn.toNat))
  | skipEqRegister {x y : Nibble} : Row s (.skipEqRegister x y) (s.skipIf (s.v x = s.v y))
  | skipNeRegister {x y : Nibble} : Row s (.skipNeRegister x y) (s.skipIf (s.v x ≠ s.v y))
  | loadByte {x : Nibble} {nn : UInt8} : Row s (.loadByte x nn) (s.next.set x nn.toNat)
  | addByte {x : Nibble} {nn : UInt8} :
      Row s (.addByte x nn) (s.next.set x ((s.v x + nn.toNat) % 256))
  | mov {x y : Nibble} : Row s (.alu x y .mov) (s.next.set x (s.v y))
  | or {x y : Nibble} : Row s (.alu x y .or) (s.next.set x (s.v x ||| s.v y))
  | and {x y : Nibble} : Row s (.alu x y .and) (s.next.set x (s.v x &&& s.v y))
  | xor {x y : Nibble} : Row s (.alu x y .xor) (s.next.set x (s.v x ^^^ s.v y))
  | add {x y : Nibble} :
      Row s (.alu x y .add)
        (s.next.setWithFlag x ((s.v x + s.v y) % 256) (if 255 < s.v x + s.v y then 1 else 0))
  | sub {x y : Nibble} :
      Row s (.alu x y .sub)
        (s.next.setWithFlag x ((s.v x + 256 - s.v y) % 256) (if s.v y < s.v x then 1 else 0))
  | shr {x y : Nibble} :
      Row s (.alu x y .shr) (s.next.setWithFlag x (s.v x / 2) (s.v x % 2))
  | subn {x y : Nibble} :
      Row s (.alu x y .subn)
        (s.next.setWithFlag x ((s.v y + 256 - s.v x) % 256) (if s.v x < s.v y then 1 else 0))
  | shl {x y : Nibble} :
      Row s (.alu x y .shl) (s.next.setWithFlag x (2 * s.v x % 256) (s.v x / 128))
  | loadIndex {nnn : Address} : Row s (.loadIndex nnn) { s.next with index := nnn.val }
  | jumpOffset {nnn : Address} : Row s (.jumpOffset nnn) { s with pc := nnn.val + s.v 0 }
  | random {x : Nibble} {nn : UInt8} :
      Row s (.random x nn)
        { s.next.set x (s.random.peek.toNat &&& nn.toNat) with random := s.random.advance }
  | draw {x y n : Nibble} {erased : Bool}
      (h : erased = true ↔ ∃ px py, s.covers x y n px py = true ∧ s.pixel px py = true) :
      Row s (.draw x y n)
        { s.next.set 0xF erased.toNat with
          pixel := fun px py => s.pixel px py ^^ s.covers x y n px py }
  | skipKeyDown {x : Nibble} {skips : Bool} (h : skips = true ↔ s.keyDown x) :
      Row s (.skipKeyDown x) (s.skipIf skips)
  | skipKeyUp {x : Nibble} {skips : Bool} (h : skips = true ↔ ¬s.keyDown x) :
      Row s (.skipKeyUp x) (s.skipIf skips)
  | readDelay {x : Nibble} : Row s (.readDelay x) (s.next.set x s.delay)
  | awaitKey {x : Nibble} : Row s (.awaitKey x) { s.next with awaiting := some x }
  | setDelay {x : Nibble} : Row s (.setDelay x) { s.next with delay := s.v x }
  | setSound {x : Nibble} : Row s (.setSound x) { s.next with sound := s.v x }
  | addIndex {x : Nibble} : Row s (.addIndex x) { s.next with index := s.index + s.v x }
  | loadGlyph {x : Nibble} : Row s (.loadGlyph x) { s.next with index := 5 * s.v x }
  | storeDecimal {x : Nibble} {hundreds tens units : Nat} (ht : tens < 10) (hu : units < 10)
      (h : 100 * hundreds + 10 * tens + units = s.v x) :
      Row s (.storeDecimal x)
        { s.next with
          memory := fun a =>
            if a = s.index then hundreds else if a = s.index + 1 then tens
            else if a = s.index + 2 then units else s.memory a }
  | saveRegisters {x : Nibble} :
      Row s (.saveRegisters x)
        { s.next with
          memory := fun a =>
            if s.index ≤ a ∧ a ≤ s.index + x.val then s.v (.low (a - s.index)) else s.memory a }
  | restoreRegisters {x : Nibble} :
      Row s (.restoreRegisters x)
        { s.next with v := fun r => if r ≤ x then s.memory (s.index + r.val) else s.v r }
  /-- Outside the table, where the settings say to go on. -/
  | unknown {word : UInt16} (h : s.config.unknownOpcodes = .ignore) :
      Row s (.unknown word) s.next

/-- Why an instruction cannot be carried out. -/
inductive Fails (s : State) : Instruction → Fault → Prop
  | ret (h : s.stack = []) : Fails s .ret .stackUnderflow
  | call {nnn : Address} (h : s.depth ≤ s.stack.length) :
      Fails s (.call nnn) (.stackOverflow s.depth)
  | addIndex {x : Nibble} (h : 0x10000 ≤ s.index + s.v x) :
      Fails s (.addIndex x) (.memoryOutOfBounds (s.index + s.v x))
  | access {i : Instruction} {len : Nat} (hi : s.accesses i = some len)
      (h : 4096 < s.index + len) : Fails s i (.memoryOutOfBounds (max s.index 4096))
  | unknown {word : UInt16} (h : s.config.unknownOpcodes = .fault) :
      Fails s (.unknown word) (.unknownOpcode word)

/-- The table leaves no choice. -/
theorem Row.unique {s s₁ s₂ : State} {i : Instruction} (h₁ : Row s i s₁) (h₂ : Row s i s₂) :
    s₁ = s₂ := by
  cases h₁ with
  | ret h =>
    cases h₂ with
    | ret h' =>
      obtain ⟨rfl, rfl⟩ := List.cons.inj (h.symm.trans h')
      rfl
  | draw h =>
    cases h₂ with
    | draw h' => rw [Bool.eq_iff_iff.mpr (h.trans h'.symm)]
  | skipKeyDown h =>
    cases h₂ with
    | skipKeyDown h' => rw [Bool.eq_iff_iff.mpr (h.trans h'.symm)]
  | skipKeyUp h =>
    cases h₂ with
    | skipKeyUp h' => rw [Bool.eq_iff_iff.mpr (h.trans h'.symm)]
  | @storeDecimal _ hundreds tens units ht hu h =>
    cases h₂ with
    | @storeDecimal _ hundreds' tens' units' ht' hu' h' =>
      obtain rfl : hundreds = hundreds' := by omega
      obtain rfl : tens = tens' := by omega
      obtain rfl : units = units' := by omega
      rfl
  | _ => cases h₂; rfl

variable {s s' : State} {i : Instruction}

/-- What no row touches. -/
theorem Row.frame (h : Row s i s') :
    s'.config = s.config ∧ s'.font = s.font ∧ s'.rom = s.rom ∧ s'.width = s.width ∧
      s'.height = s.height ∧ s'.depth = s.depth ∧ s'.down = s.down ∧ s'.fault = s.fault := by
  cases h <;> exact ⟨rfl, rfl, rfl, rfl, rfl, rfl, rfl, rfl⟩

/-- A wait begins with the instruction that asks for a key, and no instruction ends one. -/
theorem Row.awaiting_cases (h : Row s i s') :
    s'.awaiting = s.awaiting ∨ ∃ x, i = .awaitKey x ∧ s'.awaiting = some x := by
  cases h with
  | awaitKey => exact .inr ⟨_, rfl, rfl⟩
  | _ => exact .inl rfl

/-- The random bytes stay those of one seed. -/
theorem Row.seed_eq (h : Row s i s') : s'.random.seed = s.random.seed := by
  cases h <;> rfl

/-- A return goes to the innermost address and takes it off the stack, a call puts the address
after it on top. Nothing else touches the stack. -/
theorem Row.stack_cases (h : Row s i s') :
    s'.stack = s.stack ∨ (i = .ret ∧ s.stack = s'.pc :: s'.stack) ∨
      ∃ nnn, i = .call nnn ∧ s'.stack = (s.pc + 2) :: s.stack := by
  cases h with
  | ret h => exact .inr (.inl ⟨rfl, h⟩)
  | call => exact .inr (.inr ⟨_, rfl, rfl⟩)
  | _ => exact .inl rfl

theorem State.skipIf_pc_le (condition : Bool) : (s.skipIf condition).pc ≤ s.pc + 4 := by
  cases condition with
  | false => exact Nat.add_le_add_left (by decide) s.pc
  | true => exact Nat.le_refl (s.pc + 4)

/-- The furthest jump is from the last address by a full register. -/
theorem Row.pc_le (h : Row s i s') (hpc : s.pc ≤ 4094) (hv : s.v 0 ≤ 255)
    (hstack : ∀ a ∈ s.stack, a ≤ 0x1000) : s'.pc ≤ 0x10FE := by
  have hnext : s.pc + 2 ≤ 0x10FE := by omega
  have hskip (condition : Bool) : (s.skipIf condition).pc ≤ 0x10FE := by
    have := s.skipIf_pc_le condition
    omega
  cases h with
  | @ret a rest h =>
    have ha : a ≤ 0x1000 := hstack a (h ▸ List.mem_cons_self)
    exact Nat.le_trans ha (by decide)
  | @jump nnn | @call nnn =>
    exact Nat.le_trans (Nat.le_of_lt nnn.isLt) (by decide)
  | @jumpOffset nnn =>
    have := nnn.isLt
    change nnn.val + s.v 0 ≤ 0x10FE
    omega
  | skipEqByte | skipNeByte | skipEqRegister | skipNeRegister | skipKeyDown | skipKeyUp =>
    exact hskip _
  | _ => exact hnext

end Table

end Chip8
