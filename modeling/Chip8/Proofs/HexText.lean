import Mathlib.Algebra.Group.Nat.Defs
import Chip8.Hex

/-!
Hexadecimal text is read back to the number that it was made of, however many zeros stand before it,
and a number that needs no more digits than it is given is as wide as asked.
-/

namespace Chip8

namespace Hex

theorem value?_digit (d : Nibble) : value? (digit d) = some d := by
  decide +revert

theorem toNat_le_of_value? {c : Char} {d : Nibble} (h : value? c = some d) : c.toNat ≤ 102 := by
  unfold value? at h
  split at h
  · rename_i hc
    exact Nat.le_trans hc.2 (by decide)
  · split at h
    · rename_i hc
      exact Nat.le_trans hc.2 (by decide)
    · split at h
      · rename_i hc
        exact hc.2
      · cases h

theorem value?_eq_zero {c : Char} : value? c = some 0 ↔ c = '0' := by
  constructor
  · intro h
    have hall : ∀ n ≤ 102, value? (Char.ofNat n) = some 0 → Char.ofNat n = '0' := by decide
    have hc := hall c.toNat (toNat_le_of_value? h)
    rw [Char.ofNat_toNat] at hc
    exact hc h
  · rintro rfl
    rfl

theorem digits_eq (n : Nat) :
    digits n = (if n < 16 then [] else digits (n / 16)) ++ [digit (.low n)] := by
  have hdigit : ∀ d : Nibble, (Nat.digitChar d.val).toUpper = digit d := by decide
  have hlow := hdigit (.low n)
  by_cases h : n < 16
  · rw [digits, Nat.toDigits_of_lt_base h, if_pos h, ← hlow, Nibble.low, Fin.val_ofNat,
      Nat.mod_eq_of_lt h]
    rfl
  · rw [digits, Nat.toDigits_of_base_le (by decide) (Nat.not_lt.mp h), if_neg h, List.map_append,
      ← hlow]
    rfl

theorem appendDigit?_digit (n : Nat) (d : Nibble) :
    appendDigit? n (digit d) = some (16 * n + d.val) := by
  rw [appendDigit?, value?_digit]
  rfl

theorem number?_concat (cs : List Char) (d : Nibble) :
    number? (cs ++ [digit d]) = (number? cs).map fun n => 16 * n + d.val := by
  rw [number?, List.foldlM_append]
  change (number? cs >>= fun n => appendDigit? n (digit d) >>= some) = _
  cases number? cs with
  | none => rfl
  | some n =>
    change (appendDigit? n (digit d) >>= some) = _
    rw [appendDigit?_digit]
    rfl

theorem number?_digits (n : Nat) : number? (digits n) = some n := by
  induction n using Nat.strongRecOn with
  | ind n ih =>
    rw [digits_eq, number?_concat]
    by_cases h : n < 16
    · rw [if_pos h]
      exact congrArg some ((Nat.zero_add _).trans (Nat.mod_eq_of_lt h))
    · rw [if_neg h, ih (n / 16) (by omega)]
      exact congrArg some (Nat.div_add_mod n 16)

/-- The zeros on the left do not count. -/
theorem number?_padded (width n : Nat) : number? (padded width n) = some n := by
  rw [padded]
  induction width - (digits n).length with
  | zero => exact number?_digits n
  | succ k ih => exact ih

theorem mem_digits {n : Nat} {c : Char} (h : c ∈ digits n) : ∃ d, c = digit d := by
  induction n using Nat.strongRecOn with
  | ind n ih =>
    rw [digits_eq, List.mem_append, List.mem_singleton] at h
    rcases h with h | rfl
    · split at h
      · cases h
      · exact ih (n / 16) (by omega) h
    · exact ⟨_, rfl⟩

theorem mem_padded {width n : Nat} {c : Char} (h : c ∈ padded width n) : ∃ d, c = digit d := by
  rcases List.mem_append.mp h with h | h
  · exact ⟨0, (List.eq_of_mem_replicate h).trans rfl⟩
  · exact mem_digits h

theorem length_padded {width n : Nat} (hwidth : 0 < width) (h : n < 16 ^ width) :
    (padded width n).length = width := by
  have hdigits : (digits n).length ≤ width := by
    rw [digits, List.length_map]
    exact (Nat.length_toDigits_le_iff (by decide) hwidth).mpr h
  rw [padded, List.length_append, List.length_replicate]
  omega

theorem digits_ne_nil (n : Nat) : digits n ≠ [] := by
  rw [digits_eq]
  simp

/-- Only zero begins with a zero. -/
theorem head?_digits {n : Nat} (h : 0 < n) : (digits n).head? ≠ some '0' := by
  induction n using Nat.strongRecOn with
  | ind n ih =>
    rw [digits_eq]
    by_cases hn : n < 16
    · have hdigit : ∀ d : Nibble, digit d = '0' → d.val = 0 := by decide
      rw [if_pos hn]
      intro hzero
      have hlow : n % 16 = 0 := hdigit (.low n) (Option.some.inj hzero)
      omega
    · have hrest := ih (n / 16) (by omega) (by omega)
      obtain ⟨c, cs, hcs⟩ := List.exists_cons_of_ne_nil (digits_ne_nil (n / 16))
      rw [hcs] at hrest
      rw [if_neg hn, hcs]
      exact hrest

/-- A number as it is written: in upper case, with `width` digits or as many as it takes. -/
structure Written (width n : Nat) (cs : List Char) : Prop where
  upper : ∀ c ∈ cs, c ∈ "0123456789ABCDEF".toList
  value : number? cs = some n
  width_le : width ≤ cs.length
  head : width < cs.length → cs.head? ≠ some '0'

theorem written_padded {width : Nat} (hwidth : 0 < width) (n : Nat) :
    Written width n (padded width n) where
  upper c hc := by
    have hdigit : ∀ d : Nibble, digit d ∈ "0123456789ABCDEF".toList := by decide
    obtain ⟨d, rfl⟩ := mem_padded hc
    exact hdigit d
  value := number?_padded width n
  width_le := by
    rw [padded, List.length_append, List.length_replicate]
    omega
  head hlong := by
    rw [padded, List.length_append, List.length_replicate] at hlong
    have hfull : width - (digits n).length = 0 := by omega
    rw [padded, hfull, List.replicate_zero, List.nil_append]
    apply head?_digits
    refine Nat.pos_of_ne_zero ?_
    rintro rfl
    have hone : (digits 0).length = 1 := rfl
    omega

theorem toList_marked (width n : Nat) :
    (marked width n).toList = '0' :: 'x' :: padded width n := by
  simp [marked, text]

end Hex

theorem Nibble.toList_text (k : Nibble) : k.text.toList = [Hex.digit k] := by
  rw [Nibble.text]
  simp

end Chip8
