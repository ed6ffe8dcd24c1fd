import Chip8.Block
import Chip8.Fault

/-!
Four kilobytes of memory. Addresses never wrap: an access that is not wholly inside is refused
with the address where it leaves, and then no byte has changed.
-/

namespace Chip8

structure Memory where
  bytes : Vector UInt8 4096
  deriving DecidableEq

namespace Memory

def size : Nat := 4096

/-- Programs start here; the space below is for the font. -/
def programStart : Nat := 0x200

def programCapacity : Nat := size - programStart

def zero : Memory := ⟨Vector.replicate 4096 0⟩

def read (m : Memory) (a : Nat) : Except Fault UInt8 :=
  if h : a < 4096 then .ok m.bytes[a] else .error (.memoryOutOfBounds a)

def write (m : Memory) (a : Nat) (b : UInt8) : Except Fault Memory :=
  if h : a < 4096 then .ok ⟨m.bytes.set a b⟩ else .error (.memoryOutOfBounds a)

/-- A big-endian word. Of two addresses outside, the first is reported. -/
def readWord (m : Memory) (a : Nat) : Except Fault UInt16 :=
  match m.read a with
  | .error f => .error f
  | .ok high =>
    match m.read (a + 1) with
    | .error f => .error f
    | .ok low => .ok (high.toUInt16 <<< 8 ||| low.toUInt16)

/-- Refuses a range that leaves memory, with the first of its addresses outside. -/
def checkRange (a len : Nat) : Except Fault Unit :=
  if a + len ≤ 4096 then .ok () else .error (.memoryOutOfBounds (max a 4096))

def slice (m : Memory) (a len : Nat) : Except Fault (List UInt8) :=
  (checkRange a len).map fun _ => (m.bytes.extract a (a + len)).toList

/-- Lays `data` over the bytes from `a` on. -/
def splice (m : Memory) (a : Nat) (data : List UInt8) : Except Fault Memory :=
  (checkRange a data.length).map fun _ => ⟨overlay m.bytes a data⟩

def fill (m : Memory) (a len : Nat) (b : UInt8) : Except Fault Memory :=
  (checkRange a len).map fun _ => ⟨overlay m.bytes a (List.replicate len b)⟩

def nonzeroCount (m : Memory) : Nat := m.bytes.toList.countP (· ≠ 0)

/-- A host names a range with two 64-bit numbers. One that starts inside memory has an end only
if their sum is a 64-bit number too. -/
def rangeHasEnd (a len : Nat) : Bool := 4096 < a || a + len < UInt64.size

theorem read_of_lt (m : Memory) {a : Nat} (h : a < 4096) : m.read a = .ok m.bytes[a] := by
  rw [read, dif_pos h]

theorem read_of_le (m : Memory) {a : Nat} (h : 4096 ≤ a) :
    m.read a = .error (.memoryOutOfBounds a) := by
  rw [read, dif_neg (Nat.not_lt.mpr h)]

theorem read_write {m m' : Memory} {a : Nat} {b : UInt8} (h : m.write a b = .ok m') (i : Nat) :
    m'.read i = if i = a then .ok b else m.read i := by
  rw [write] at h
  split at h
  · rename_i ha
    obtain rfl := Except.ok.inj h
    by_cases hi : i < 4096
    · rw [read_of_lt _ hi, read_of_lt _ hi, Vector.getElem_set]
      by_cases hia : i = a
      · rw [if_pos hia.symm, if_pos hia]
      · rw [if_neg (Ne.symm hia), if_neg hia]
    · have hi := Nat.not_lt.mp hi
      rw [read_of_le _ hi, read_of_le _ hi, if_neg (by omega)]
  · simp at h

theorem checkRange_eq_ok {a len : Nat} : checkRange a len = .ok () ↔ a + len ≤ 4096 := by
  rw [checkRange]
  split <;> simp_all

theorem read_splice {m m' : Memory} {a : Nat} {data : List UInt8} (h : m.splice a data = .ok m')
    (i : Nat) : m'.read i =
      if hi : a ≤ i ∧ i < a + data.length then .ok data[i - a] else m.read i := by
  rw [splice, checkRange] at h
  split at h
  · rename_i hr
    obtain rfl := Except.ok.inj h
    by_cases hlt : i < 4096
    · rw [read_of_lt _ hlt, read_of_lt _ hlt, getElem_overlay]
      split <;> rfl
    · have hle := Nat.not_lt.mp hlt
      rw [read_of_le _ hle, read_of_le _ hle, dif_neg (by omega)]
  · simp [Except.map] at h

theorem slice_eq_ok (m : Memory) {a len : Nat} (h : a + len ≤ 4096) :
    m.slice a len = .ok (m.bytes.extract a (a + len)).toList := by
  rw [slice, checkRange, if_pos h]
  rfl

theorem splice_eq_ok (m : Memory) {a : Nat} {data : List UInt8} (h : a + data.length ≤ 4096) :
    m.splice a data = .ok ⟨overlay m.bytes a data⟩ := by
  rw [splice, checkRange, if_pos h]
  rfl

theorem programEnd_le {len : Nat} (h : len ≤ programCapacity) : programStart + len ≤ 4096 := by
  unfold programCapacity size programStart at h
  unfold programStart
  omega

theorem checkRange_eq_error {a len : Nat} {cause : Fault} :
    checkRange a len = .error cause ↔
      4096 < a + len ∧ cause = .memoryOutOfBounds (max a 4096) := by
  rw [checkRange]
  split <;> rename_i h
  · simp [Nat.not_lt.mpr h]
  · simp [Nat.not_le.mp h, eq_comm]

theorem slice_eq_error {m : Memory} {a len : Nat} {cause : Fault} :
    m.slice a len = .error cause ↔
      4096 < a + len ∧ cause = .memoryOutOfBounds (max a 4096) := by
  rw [slice, ← checkRange_eq_error]
  cases checkRange a len <;> simp [Except.map]

theorem splice_eq_error {m : Memory} {a : Nat} {data : List UInt8} {cause : Fault} :
    m.splice a data = .error cause ↔
      4096 < a + data.length ∧ cause = .memoryOutOfBounds (max a 4096) := by
  rw [splice, ← checkRange_eq_error]
  cases checkRange a data.length <;> simp [Except.map]

theorem of_slice_eq_ok {m : Memory} {a len : Nat} {block : List UInt8}
    (h : m.slice a len = .ok block) :
    a + len ≤ 4096 ∧ block = (m.bytes.extract a (a + len)).toList := by
  have hr : a + len ≤ 4096 := Nat.le_of_not_lt fun hr => by
    rw [slice_eq_error.mpr ⟨hr, rfl⟩] at h
    cases h
  rw [slice_eq_ok m hr] at h
  exact ⟨hr, (Except.ok.inj h).symm⟩

theorem length_of_slice {m : Memory} {a len : Nat} {block : List UInt8}
    (h : m.slice a len = .ok block) : block.length = len := by
  obtain ⟨hr, rfl⟩ := of_slice_eq_ok h
  rw [Vector.length_toList]
  omega

/-- What can be read can be read in part. -/
theorem slice_take {m : Memory} {a len k : Nat} {block : List UInt8}
    (h : m.slice a len = .ok block) (hk : k ≤ len) : m.slice a k = .ok (block.take k) := by
  obtain ⟨hr, rfl⟩ := of_slice_eq_ok h
  have hroom : a + k ≤ 4096 := by omega
  have hmin : min k (a + len - a) = a + k - a := by omega
  rw [slice_eq_ok m hroom, Vector.toList_extract, Vector.toList_extract, List.take_take, hmin]

theorem read_of_slice {m : Memory} {a len k : Nat} {block : List UInt8}
    (h : m.slice a len = .ok block) (hk : k < len) :
    m.read (a + k) = .ok (block.getD k 0) := by
  have hlen := length_of_slice h
  obtain ⟨hr, rfl⟩ := of_slice_eq_ok h
  rw [read_of_lt m (by omega), List.getD_eq_getElem?_getD, List.getElem?_eq_getElem (by omega),
    Option.getD_some, Vector.getElem_toList, Vector.getElem_extract]

theorem readWord_of_lt (m : Memory) {a : Nat} (h : a + 1 < 4096) :
    ∃ w, m.readWord a = .ok w := by
  unfold readWord
  rw [read_of_lt m (Nat.lt_of_succ_lt h), read_of_lt m h]
  exact ⟨_, rfl⟩

theorem readWord_of_le (m : Memory) {a : Nat} (h : 4096 ≤ a + 1) :
    m.readWord a = .error (.memoryOutOfBounds (max a 4096)) := by
  unfold readWord
  by_cases ha : a < 4096
  · rw [read_of_lt m ha, read_of_le m h, show max a 4096 = a + 1 by omega]
  · have hle := Nat.not_lt.mp ha
    rw [read_of_le m hle, Nat.max_eq_left hle]

/-- Both bytes of a word that is read lie in memory. -/
theorem lt_of_readWord {m : Memory} {a : Nat} {w : UInt16} (h : m.readWord a = .ok w) :
    a + 1 < 4096 := Nat.lt_of_not_le fun hle => by
  rw [readWord_of_le m hle] at h
  cases h

theorem readWord_eq_error {m : Memory} {a : Nat} {cause : Fault} :
    m.readWord a = .error cause ↔
      4096 ≤ a + 1 ∧ cause = .memoryOutOfBounds (max a 4096) := by
  constructor
  · intro h
    have hle : 4096 ≤ a + 1 := Nat.le_of_not_lt fun hlt => by
      obtain ⟨w, hw⟩ := readWord_of_lt m hlt
      rw [hw] at h
      cases h
    rw [readWord_of_le m hle] at h
    exact ⟨hle, (Except.error.inj h).symm⟩
  · rintro ⟨hle, rfl⟩
    exact readWord_of_le m hle

end Memory

end Chip8
