/-!
A set of program addresses, kept in ascending order and without repetition.
-/

namespace Chip8

structure Breakpoints where
  addresses : List UInt16
  ascending : addresses.Pairwise (· < ·)
  deriving DecidableEq, Repr

namespace Breakpoints

def none : Breakpoints := ⟨[], .nil⟩

def contains (b : Breakpoints) (a : UInt16) : Bool := b.addresses.contains a

private def insertSorted (a : UInt16) : List UInt16 → List UInt16
  | [] => [a]
  | c :: rest =>
    if a < c then a :: c :: rest
    else if a = c then c :: rest
    else c :: insertSorted a rest

private theorem mem_insertSorted {a b : UInt16} {xs : List UInt16} :
    b ∈ insertSorted a xs ↔ b = a ∨ b ∈ xs := by
  induction xs with
  | nil => simp [insertSorted]
  | cons c xs ih =>
    rw [insertSorted]
    split
    · simp
    · split
      · rename_i h
        simp [h]
      · simp only [List.mem_cons, ih]
        exact or_left_comm

private theorem ascending_insertSorted {a : UInt16} {xs : List UInt16} (h : xs.Pairwise (· < ·)) :
    (insertSorted a xs).Pairwise (· < ·) := by
  induction xs with
  | nil => simp [insertSorted]
  | cons c xs ih =>
    obtain ⟨hc, hxs⟩ := List.pairwise_cons.mp h
    rw [insertSorted]
    split
    · rename_i hac
      refine List.pairwise_cons.mpr ⟨fun b hb => ?_, h⟩
      rcases List.mem_cons.mp hb with rfl | hb
      · exact hac
      · exact UInt16.lt_trans hac (hc b hb)
    · split
      · exact h
      · rename_i hlt hne
        refine List.pairwise_cons.mpr ⟨fun b hb => ?_, ih hxs⟩
        rcases mem_insertSorted.mp hb with rfl | hb
        · exact UInt16.lt_of_le_of_ne (UInt16.not_lt.mp hlt) (Ne.symm hne)
        · exact hc b hb

def insert (b : Breakpoints) (a : UInt16) : Breakpoints :=
  ⟨insertSorted a b.addresses, ascending_insertSorted b.ascending⟩

def erase (b : Breakpoints) (a : UInt16) : Breakpoints :=
  ⟨b.addresses.filter (· ≠ a), b.ascending.filter _⟩

@[simp] theorem contains_insert (s : Breakpoints) (a b : UInt16) :
    (s.insert a).contains b = (b == a || s.contains b) := by
  rw [Bool.eq_iff_iff]
  simp [contains, insert, mem_insertSorted]

@[simp] theorem contains_erase (s : Breakpoints) (a b : UInt16) :
    (s.erase a).contains b = (b != a && s.contains b) := by
  rw [Bool.eq_iff_iff]
  simp [contains, erase, and_comm]

end Breakpoints

end Chip8
