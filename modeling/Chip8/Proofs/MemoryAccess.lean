import Chip8.Proofs.Total

/-!
Memory as a host reaches it, by 64-bit addresses and lengths. An access lies inside memory, where it
reads and writes its own bytes and no others, or it leaves memory and is refused with the first
address outside. Only a range that starts inside and whose end is no 64-bit number gets no answer.
-/

namespace Chip8

namespace Memory

/-- What a host can ask of memory at an address. -/
inductive Access where
  | byte
  | word
  | block (len : UInt64)
  | store (b : UInt8)
  /-- Borrows as many bytes as there are in `data`, and leaves `data` in them. -/
  | overwrite (data : List UInt8)

inductive Answer where
  | byte (b : UInt8)
  | word (w : UInt16)
  | block (bytes : List UInt8)
  | done

/-- How many bytes are asked for. -/
def Access.count : Access → Nat
  | byte | store _ => 1
  | word => 2
  | block len => len.toNat
  | overwrite data => data.length

/-- The bytes that are written. -/
def Access.written : Access → List UInt8
  | byte | word | block _ => []
  | store b => [b]
  | overwrite data => data

theorem rangeHasEnd_eq_false {a len : Nat} :
    rangeHasEnd a len = false ↔ a ≤ 4096 ∧ 2 ^ 64 ≤ a + len := by
  rw [rangeHasEnd, Bool.or_eq_false_iff, decide_eq_false_iff_not, decide_eq_false_iff_not,
    Nat.not_lt, Nat.not_lt]
  rfl

/-- The right answer to an access at `a`. -/
inductive Answers (m : Memory) (a : Nat) : Access → Answer → Prop
  | byte {b : UInt8} (h : m.read a = .ok b) : Answers m a .byte (.byte b)
  | word {high low : UInt8} {w : UInt16} (hhigh : m.read a = .ok high)
      (hlow : m.read (a + 1) = .ok low) (hw : w.toNat = 256 * high.toNat + low.toNat) :
      Answers m a .word (.word w)
  | block {len : UInt64} {bytes : List UInt8} (hlen : bytes.length = len.toNat)
      (h : ∀ k < len.toNat, m.read (a + k) = .ok (bytes.getD k 0)) :
      Answers m a (.block len) (.block bytes)
  | store {b : UInt8} : Answers m a (.store b) .done
  | overwrite {data : List UInt8} : Answers m a (.overwrite data) .done

end Memory

namespace Checked

open Memory (Access Answer Answers)

/-- What a write answers, and the memory after it. -/
def afterWrite (m : Memory) : Except Fault Memory → Except Fault Answer × Memory
  | .ok after => (.ok .done, after)
  | .error cause => (.error cause, m)

/-- What an access answers, and the memory after it. -/
def access (m : Memory) (a : UInt64) : Access → Option (Except Fault Answer × Memory)
  | .byte => some ((m.read a.toNat).map .byte, m)
  | .word => (readWord m a.toNat).map fun answer => (answer.map .word, m)
  | .block len => (slice m a.toNat len.toNat).map fun answer => (answer.map .block, m)
  | .store b => some (afterWrite m (m.write a.toNat b))
  | .overwrite data => (splice m a.toNat data.length data).map (afterWrite m)

variable {m : Memory} {a : UInt64} {i : Access}

theorem checkRange_eq_none {a len : Nat} (ha : a ≤ 4096) (h : 2 ^ 64 ≤ a + len) :
    checkRange a len = none := by
  unfold checkRange sum
  rw [if_neg (Nat.not_lt.mpr ha), if_neg (Nat.not_lt.mpr h)]
  rfl

theorem checkRange_of_lt {a : Nat} (len : Nat) (ha : 4096 < a) :
    checkRange a len = some (.error (.memoryOutOfBounds (max a 4096))) := by
  unfold checkRange
  rw [if_pos ha]

/-- A range with an end is refused if it leaves memory, and so is one that starts past it. -/
theorem checkRange_eq_error {a len : Nat} (h : 4096 < a + len)
    (hend : a ≤ 4096 → a + len < 2 ^ 64) :
    checkRange a len = some (.error (.memoryOutOfBounds (max a 4096))) := by
  rcases Nat.lt_or_ge 4096 a with ha | ha
  · exact checkRange_of_lt len ha
  · rw [checkRange_eq (hend ha), Memory.checkRange_eq_error.mpr ⟨h, rfl⟩]

/-- Inside memory an access is answered, and it changes the bytes that it writes and no others. -/
theorem access_inside (h : a.toNat + i.count ≤ 4096) :
    ∃ answer after, access m a i = some (.ok answer, after) ∧ Answers m a.toNat i answer ∧
      ∀ k, after.read k = if hk : a.toNat ≤ k ∧ k < a.toNat + i.written.length
        then .ok i.written[k - a.toNat] else m.read k := by
  have hsame (k : Nat) : m.read k = if hk : a.toNat ≤ k ∧ k < a.toNat + ([] : List UInt8).length
      then .ok ([] : List UInt8)[k - a.toNat] else m.read k := by
    rw [dif_neg (by simp only [List.length_nil]; omega)]
  cases i with
  | byte =>
    have hread := m.read_of_lt (show a.toNat < 4096 from h)
    refine ⟨.byte _, m, ?_, .byte hread, hsame⟩
    simp only [access, hread, Except.map]
  | word =>
    have hlow : a.toNat + 1 < 4096 := h
    have hhigh : a.toNat < 4096 := Nat.lt_of_succ_lt hlow
    refine ⟨.word _, m, ?_, .word (m.read_of_lt hhigh) (m.read_of_lt hlow) (toNat_bigEndian ..),
      hsame⟩
    simp only [access, readWord_eq, Memory.readWord, m.read_of_lt hhigh, m.read_of_lt hlow,
      Option.map_some, Except.map]
  | block len =>
    have hslice : m.slice a.toNat len.toNat = _ := m.slice_eq_ok h
    have hsum : a.toNat + len.toNat < 2 ^ 64 := Nat.lt_of_le_of_lt h (by decide)
    refine ⟨.block _, m, ?_, .block (Memory.length_of_slice hslice)
      fun k hk => Memory.read_of_slice hslice hk, hsame⟩
    simp only [access, slice_eq m hsum, hslice, Option.map_some, Except.map]
  | store b =>
    have hwrite : m.write a.toNat b = .ok ⟨m.bytes.set a.toNat b h⟩ := dif_pos h
    refine ⟨.done, ⟨m.bytes.set a.toNat b h⟩, by simp only [access, hwrite, afterWrite], .store, ?_⟩
    intro k
    rw [Memory.read_write hwrite]
    by_cases hk : k = a.toNat
    · subst hk
      simp [Access.written]
    · rw [if_neg hk, dif_neg (by simp only [Access.written, List.length_singleton]; omega)]
  | overwrite data =>
    have hsplice : m.splice a.toNat data = _ := m.splice_eq_ok h
    have hsum : a.toNat + data.length < 2 ^ 64 := Nat.lt_of_le_of_lt h (by decide)
    refine ⟨.done, _, ?_, .overwrite, Memory.read_splice hsplice⟩
    simp only [access, splice_eq m hsum, hsplice, Option.map_some, afterWrite]

/-- An access that leaves memory is refused, and memory is as it was. -/
theorem access_outside (h : 4096 < a.toNat + i.count)
    (hend : a.toNat ≤ 4096 → a.toNat + i.count < 2 ^ 64) :
    access m a i = some (.error (.memoryOutOfBounds (max a.toNat 4096)), m) := by
  cases i with
  | byte =>
    have ha : 4096 ≤ a.toNat := Nat.le_of_lt_succ h
    rw [access, m.read_of_le ha, Nat.max_eq_left ha]
    rfl
  | word =>
    rw [access, readWord_eq, m.readWord_of_le (Nat.le_of_lt_succ h)]
    rfl
  | block len =>
    have hrange : checkRange a.toNat len.toNat = _ := checkRange_eq_error h hend
    rw [access, slice, hrange]
    rfl
  | store b =>
    have ha : 4096 ≤ a.toNat := Nat.le_of_lt_succ h
    have hwrite : m.write a.toNat b = .error (.memoryOutOfBounds a.toNat) :=
      dif_neg (Nat.not_lt.mpr ha)
    rw [access, hwrite, Nat.max_eq_left ha]
    rfl
  | overwrite data =>
    have hrange : checkRange a.toNat data.length = _ := checkRange_eq_error h hend
    rw [access, splice, hrange]
    rfl

theorem access_endless (ha : a.toNat ≤ 4096) (h : 2 ^ 64 ≤ a.toNat + i.count) :
    access m a i = none := by
  cases i with
  | byte | word | store => simp only [Access.count] at h; omega
  | block len =>
    have hrange : checkRange a.toNat len.toNat = none := checkRange_eq_none ha h
    rw [access, slice, hrange]
    rfl
  | overwrite data =>
    have hrange : checkRange a.toNat data.length = none := checkRange_eq_none ha h
    rw [access, splice, hrange]
    rfl

/-- Every access whose range has an end is answered, wherever it starts and however long it is. One
inside memory reads and writes just its own bytes. One that leaves memory is refused with the first
address outside, and changes nothing. The others are the ranges that start inside memory and end
past the last 64-bit number. -/
theorem access_answers (m : Memory) (a : UInt64) (i : Access) :
    (a.toNat + i.count ≤ 4096 →
      ∃ answer after, access m a i = some (.ok answer, after) ∧ Answers m a.toNat i answer ∧
        ∀ k, after.read k = if hk : a.toNat ≤ k ∧ k < a.toNat + i.written.length
          then .ok i.written[k - a.toNat] else m.read k) ∧
    (4096 < a.toNat + i.count → (a.toNat ≤ 4096 → a.toNat + i.count < 2 ^ 64) →
      access m a i = some (.error (.memoryOutOfBounds (max a.toNat 4096)), m)) ∧
    (access m a i = none ↔ Memory.rangeHasEnd a.toNat i.count = false) ∧
    (Memory.rangeHasEnd a.toNat i.count = false ↔
      a.toNat ≤ 4096 ∧ 2 ^ 64 ≤ a.toNat + i.count) := by
  refine ⟨access_inside, access_outside, ?_, Memory.rangeHasEnd_eq_false⟩
  rw [Memory.rangeHasEnd_eq_false]
  refine ⟨fun h => ?_, fun h => access_endless h.1 h.2⟩
  rcases Nat.lt_or_ge 4096 (a.toNat + i.count) with hout | hin
  · by_contra hend
    have hsum : a.toNat ≤ 4096 → a.toNat + i.count < 2 ^ 64 := fun ha => by
      by_contra hsum
      exact hend ⟨ha, Nat.not_lt.mp hsum⟩
    rw [access_outside hout hsum] at h
    cases h
  · obtain ⟨answer, after, hanswer, -⟩ := access_inside (m := m) hin
    rw [hanswer] at h
    cases h

/-- The last word of memory is written in full, and the byte before it stays. A word that starts at
the last byte is refused with the address past it. -/
theorem access_answers_lastWord :
    (∃ answer after, access Memory.zero 0xFFE (.overwrite [0xA2, 0x2A]) = some (.ok answer, after) ∧
      after.read 0xFFF = .ok 0x2A ∧ after.read 0xFFD = .ok 0) ∧
    access Memory.zero 0xFFF .word = some (.error (.memoryOutOfBounds 0x1000), Memory.zero) := by
  have hinside : (0xFFE : UInt64).toNat + (Access.overwrite [0xA2, 0x2A]).count ≤ 4096 := by decide
  have houtside : 4096 < (0xFFF : UInt64).toNat + Access.word.count := by decide
  have hend : (0xFFF : UInt64).toNat ≤ 4096 → (0xFFF : UInt64).toNat + Access.word.count < 2 ^ 64 :=
    fun _ => by decide
  obtain ⟨answer, after, hanswer, -, hread⟩ := (access_answers Memory.zero 0xFFE _).1 hinside
  refine ⟨⟨answer, after, hanswer, ?_, ?_⟩,
    (access_answers Memory.zero 0xFFF .word).2.1 houtside hend⟩
  · rw [hread]
    rfl
  · rw [hread, dif_neg (by decide), Memory.read_of_lt _ (by decide)]
    simp [Memory.zero]

/-- A range of all but one of the 64-bit numbers, from address 1 on, gets no answer. -/
theorem block_not_answered : ¬∀ (m : Memory) (a len : UInt64),
    ∃ answer after, access m a (.block len) = some (answer, after) := by
  intro h
  obtain ⟨answer, after, hanswer⟩ := h Memory.zero 1 (UInt64.ofNat (2 ^ 64 - 1))
  have hnone : access Memory.zero 1 (.block (UInt64.ofNat (2 ^ 64 - 1))) = none :=
    access_endless (by decide) (by decide)
  cases hnone.symm.trans hanswer

end Checked

end Chip8
