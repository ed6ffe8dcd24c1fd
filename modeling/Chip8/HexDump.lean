import Chip8.Hex

/-!
Hex dumps: sixteen bytes to a line, after the address of the first.
-/

namespace Chip8.HexDump

/-- Cuts a list into pieces of `n`, of which the last may be shorter. -/
def chunks {α : Type} (n : Nat) (xs : List α) : List (List α) :=
  if _h : n = 0 ∨ xs = [] then []
  else xs.take n :: chunks n (xs.drop n)
termination_by xs.length
decreasing_by
  have : xs.length ≠ 0 := fun he => _h (.inr (List.eq_nil_of_length_eq_zero he))
  simp only [List.length_drop]
  omega

theorem flatten_chunks {α : Type} {n : Nat} (hn : 0 < n) (xs : List α) :
    (chunks n xs).flatten = xs := by
  rw [chunks]
  split
  · rename_i h
    rcases h with h | h
    · omega
    · exact h.symm
  · rw [List.flatten_cons, flatten_chunks hn, List.take_append_drop]
termination_by xs.length
decreasing_by
  rename_i h
  have : xs.length ≠ 0 := fun he => h (.inr (List.eq_nil_of_length_eq_zero he))
  simp only [List.length_drop]
  omega

/-- Piece `r` has the `n` entries from `n * r` on, or as many as there are. -/
theorem chunks_eq {α : Type} {n : Nat} (hn : 0 < n) (xs : List α) :
    chunks n xs =
      (List.range ((xs.length + n - 1) / n)).map fun r => (xs.drop (n * r)).take n := by
  rw [chunks]
  split
  · rename_i h
    rcases h with h | rfl
    · omega
    · rw [List.length_nil, Nat.div_eq_of_lt (by omega)]
      rfl
  · rename_i h
    have hlength : 0 < xs.length := List.length_pos_iff.mpr fun he => h (.inr he)
    have hcount : (xs.length + n - 1) / n = ((xs.drop n).length + n - 1) / n + 1 := by
      have hsplit : xs.length + n - 1 = xs.length - 1 + n := by omega
      rw [hsplit, Nat.add_div_right _ hn, List.length_drop]
      rcases Nat.le_total n xs.length with hle | hle
      · have hsame : xs.length - 1 = xs.length - n + n - 1 := by omega
        rw [hsame]
      · rw [Nat.div_eq_of_lt (by omega), Nat.div_eq_of_lt (by omega)]
    rw [hcount, List.range_succ_eq_map, List.map_cons, List.map_map, chunks_eq hn]
    congr 1
    refine List.map_congr_left fun r _ => ?_
    simp only [Function.comp, List.drop_drop, Nat.mul_succ, Nat.add_comm]
termination_by xs.length
decreasing_by
  rename_i h
  have : xs.length ≠ 0 := fun he => h (.inr (List.eq_nil_of_length_eq_zero he))
  simp only [List.length_drop]
  omega

def line (address : Nat) (bytes : List UInt8) : List Char :=
  Hex.padded 3 address ++ [':', ' '] ++ [' '].intercalate (bytes.map Hex.byte)

def lines (offset : Nat) (data : List UInt8) : List (List Char) :=
  (chunks 16 data).mapIdx fun r bytes => line (offset + 16 * r) bytes

def text (offset : Nat) (data : List UInt8) : String :=
  String.ofList (['\n'].intercalate (lines offset data))

end Chip8.HexDump
