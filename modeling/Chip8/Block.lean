/-!
Writing to vectors of fixed length, such as memory and the register file: one entry, or a run of
them.
-/

namespace Chip8

def setAt {α : Type} {n : Nat} (v : Vector α n) (i : Fin n) (a : α) : Vector α n :=
  v.set i.val a i.isLt

@[simp] theorem get_setAt {α : Type} {n : Nat} (v : Vector α n) (i j : Fin n) (a : α) :
    (setAt v i a).get j = if i = j then a else v.get j := by
  change (v.set i.val a i.isLt)[j.val] = if i = j then a else v[j.val]
  simp only [Vector.getElem_set, Fin.ext_iff]

/-- Writes `data` from index `start` on; what would fall past the end is dropped. -/
def overlay {α : Type} {n : Nat} (v : Vector α n) (start : Nat) : List α → Vector α n
  | [] => v
  | a :: data => overlay (v.setIfInBounds start a) (start + 1) data

theorem getElem_overlay {α : Type} {n : Nat} (data : List α) (v : Vector α n) (start i : Nat)
    (hi : i < n) :
    (overlay v start data)[i] =
      if h : start ≤ i ∧ i < start + data.length then data[i - start] else v[i] := by
  induction data generalizing v start with
  | nil =>
    rw [dif_neg (by simp only [List.length_nil]; omega), overlay]
  | cons a data ih =>
    rw [overlay, ih]
    by_cases hs : start = i
    · subst hs
      rw [dif_neg (by omega), dif_pos (by simp only [List.length_cons]; omega)]
      simp
    · by_cases hin : start + 1 ≤ i ∧ i < start + 1 + data.length
      · have hle : start ≤ i ∧ i < start + (a :: data).length := by
          simp only [List.length_cons]; omega
        have hsub : i - start = i - (start + 1) + 1 := by omega
        rw [dif_pos hin, dif_pos hle]
        simp [hsub]
      · have hout : ¬(start ≤ i ∧ i < start + (a :: data).length) := by
          simp only [List.length_cons]; omega
        rw [dif_neg hin, dif_neg hout, Vector.getElem_setIfInBounds_ne hi hs]

/-- A run that is written over by another of its length leaves no trace. -/
theorem overlay_overlay {α : Type} {n : Nat} (v : Vector α n) (start : Nat) {data data' : List α}
    (h : data.length = data'.length) :
    overlay (overlay v start data) start data' = overlay v start data' := by
  ext i hi
  rw [getElem_overlay, getElem_overlay, getElem_overlay]
  by_cases hin : start ≤ i ∧ i < start + data'.length
  · rw [dif_pos hin, dif_pos hin]
  · have hin' : ¬(start ≤ i ∧ i < start + data.length) := by rwa [h]
    rw [dif_neg hin, dif_neg hin', dif_neg hin]

end Chip8
