import Chip8.Block
import Chip8.Nibble

/-!
Random bytes: the keystream of ChaCha with twelve rounds under a key expanded from a 64-bit seed.
Each byte is the low part of one 32-bit word, so byte `j` of a seed depends on nothing else.

The cipher has 2^256 keys, and 2^64 of them come from a seed. A stream whose key a host has drawn
itself is taken to be one of these.
-/

namespace Chip8.RandomStream

private def rotateRight (x r : UInt32) : UInt32 := (x >>> r) ||| (x <<< (32 - r))

private def rotateLeft (x r : UInt32) : UInt32 := (x <<< r) ||| (x >>> (32 - r))

/-- Eight words drawn from a linear congruential generator whose output is permuted. -/
def keyWords : Nat → UInt64 → List UInt32
  | 0, _ => []
  | n + 1, s =>
    let s := s * 6364136223846793005 + 11634580027462260723
    let word := rotateRight (((s >>> 18) ^^^ s) >>> 27).toUInt32 (s >>> 59).toUInt32
    word :: keyWords n s

abbrev Words := Vector UInt32 16

def quarterRound (w : Words) (a b c d : Nibble) : Words :=
  let w := setAt w a (w.get a + w.get b)
  let w := setAt w d (rotateLeft (w.get d ^^^ w.get a) 16)
  let w := setAt w c (w.get c + w.get d)
  let w := setAt w b (rotateLeft (w.get b ^^^ w.get c) 12)
  let w := setAt w a (w.get a + w.get b)
  let w := setAt w d (rotateLeft (w.get d ^^^ w.get a) 8)
  let w := setAt w c (w.get c + w.get d)
  setAt w b (rotateLeft (w.get b ^^^ w.get c) 7)

/-- The columns, then the diagonals. -/
def doubleRound (w : Words) : Words :=
  let w := quarterRound w 0 4 8 12
  let w := quarterRound w 1 5 9 13
  let w := quarterRound w 2 6 10 14
  let w := quarterRound w 3 7 11 15
  let w := quarterRound w 0 5 10 15
  let w := quarterRound w 1 6 11 12
  let w := quarterRound w 2 7 8 13
  quarterRound w 3 4 9 14

/-- The constants, the key, a 64-bit block counter and an empty nonce. -/
def initialWords (seed : UInt64) (counter : Nat) : Words :=
  let key := keyWords 8 seed
  Vector.ofFn fun i =>
    ([0x61707865, 0x3320646e, 0x79622d32, 0x6b206574] ++ key ++
      [UInt32.ofNat counter, UInt32.ofNat (counter / UInt32.size), 0, 0]).getD i 0

def block (seed : UInt64) (counter : Nat) : Words :=
  let start := initialWords seed counter
  let mixed := Nat.repeat doubleRound 6 start
  Vector.zipWith (· + ·) mixed start

/-- Byte `j` of the stream of a seed. -/
def byteAt (seed : UInt64) (j : Nat) : UInt8 :=
  let words := block seed (j / 16)
  (words.get (Nibble.low j)).toUInt8

end RandomStream

/-- A place in the stream of a seed. -/
structure RandomStream where
  seed : UInt64
  position : Nat
  deriving DecidableEq, Repr

namespace RandomStream

def start (seed : UInt64) : RandomStream := ⟨seed, 0⟩

def peek (r : RandomStream) : UInt8 := byteAt r.seed r.position

def advance (r : RandomStream) : RandomStream := { r with position := r.position + 1 }

end Chip8.RandomStream
