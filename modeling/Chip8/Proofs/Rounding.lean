import Mathlib.Algebra.Group.Nat.Defs

/-!
Rounding of natural numbers to 24 binary digits, to the nearest and to the even one of two. What
matters here is what becomes of a difference: taking `p` off `a` and rounding makes `a` smaller as
long as `a` is at most `2 ^ 24` times `p`, and gives `a` again from `2 ^ 25` times `p` on.
-/

namespace Chip8.Rounding

/-- `n / 2 ^ k` to the nearest natural number, and to the even one of two. -/
def roundShift (n k : Nat) : Nat :=
  if 2 * (n % 2 ^ k) < 2 ^ k then n / 2 ^ k
  else if 2 * (n % 2 ^ k) = 2 ^ k then n / 2 ^ k + n / 2 ^ k % 2
  else n / 2 ^ k + 1

/-- How many binary digits more than 24 a number has. -/
def excess (n : Nat) : Nat := n.log2 - 23

/-- The nearest number that has only zeros after its first 24 binary digits. -/
def nearest (n : Nat) : Nat := roundShift n (excess n) * 2 ^ excess n

/-- A number that has only zeros after its first 24 binary digits. -/
def Short (n : Nat) : Prop := ∃ m k, m < 2 ^ 24 ∧ n = m * 2 ^ k

variable {n a c k p : Nat}

theorem roundShift_zero (n : Nat) : roundShift n 0 = n := by
  simp [roundShift, Nat.mod_one]

theorem roundShift_mul_two_pow (n j i : Nat) :
    roundShift (n * 2 ^ i) (j + i) = roundShift n j := by
  have hi := Nat.two_pow_pos i
  have hdiv : n * 2 ^ i / 2 ^ (j + i) = n / 2 ^ j := by
    rw [Nat.pow_add, Nat.mul_div_mul_right _ _ hi]
  have hmod : n * 2 ^ i % 2 ^ (j + i) = n % 2 ^ j * 2 ^ i := by
    rw [Nat.pow_add, Nat.mul_mod_mul_right]
  have hlt : 2 * (n % 2 ^ j * 2 ^ i) < 2 ^ (j + i) ↔ 2 * (n % 2 ^ j) < 2 ^ j := by
    rw [← Nat.mul_assoc, Nat.pow_add, Nat.mul_lt_mul_right hi]
  have heq : 2 * (n % 2 ^ j * 2 ^ i) = 2 ^ (j + i) ↔ 2 * (n % 2 ^ j) = 2 ^ j := by
    rw [← Nat.mul_assoc, Nat.pow_add, Nat.mul_left_inj (Nat.pos_iff_ne_zero.mp hi)]
  simp only [roundShift, hdiv, hmod, hlt, heq]

theorem roundShift_mul (c k : Nat) : roundShift (c * 2 ^ k) k = c := by
  have h := roundShift_mul_two_pow c 0 k
  rwa [Nat.zero_add, roundShift_zero] at h

theorem roundShift_bounds (n k : Nat) :
    n / 2 ^ k ≤ roundShift n k ∧ roundShift n k ≤ n / 2 ^ k + 1 := by
  unfold roundShift
  split
  · omega
  · split <;> omega

theorem roundShift_le (h : n ≤ c * 2 ^ k) : roundShift n k ≤ c := by
  rcases Nat.lt_or_eq_of_le h with hlt | rfl
  · have hq : n / 2 ^ k < c := (Nat.div_lt_iff_lt_mul (Nat.two_pow_pos k)).mpr hlt
    have := (roundShift_bounds n k).2
    omega
  · exact Nat.le_of_eq (roundShift_mul c k)

/-- More than half a unit below `c`. -/
theorem roundShift_lt (h : 2 * n + 2 ^ k < 2 * (c * 2 ^ k)) : roundShift n k < c := by
  have hpow := Nat.two_pow_pos k
  have hq : n / 2 ^ k < c := (Nat.div_lt_iff_lt_mul hpow).mpr (by omega)
  rcases Nat.lt_or_eq_of_le (Nat.succ_le_of_lt hq) with hlt | hc
  · have := (roundShift_bounds n k).2
    omega
  · -- The remainder is less than half a unit, so it is cut off.
    have hn := Nat.div_add_mod n (2 ^ k)
    have hmul : c * 2 ^ k = 2 ^ k * (n / 2 ^ k) + 2 ^ k := by
      rw [← hc, Nat.succ_mul, Nat.mul_comm]
    unfold roundShift
    rw [if_pos (by omega)]
    exact hq

/-- Less than half a unit below `c`, or just half a unit below an even one. -/
theorem roundShift_sub (hp : 2 * p < 2 ^ k ∨ 2 * p = 2 ^ k ∧ c % 2 = 0) (hle : p ≤ c * 2 ^ k) :
    roundShift (c * 2 ^ k - p) k = c := by
  have hpow := Nat.two_pow_pos k
  rcases Nat.eq_zero_or_pos p with rfl | hpos
  · exact roundShift_mul c k
  · obtain _ | c := c
    · omega
    · rw [Nat.succ_mul] at hle ⊢
      have hn : c * 2 ^ k + 2 ^ k - p = 2 ^ k - p + 2 ^ k * c := by
        rw [Nat.mul_comm c]
        omega
      have hlt : 2 ^ k - p < 2 ^ k := by omega
      have hdiv : (c * 2 ^ k + 2 ^ k - p) / 2 ^ k = c := by
        rw [hn, Nat.add_mul_div_left _ _ hpow, Nat.div_eq_of_lt hlt, Nat.zero_add]
      have hmod : (c * 2 ^ k + 2 ^ k - p) % 2 ^ k = 2 ^ k - p := by
        rw [hn, Nat.add_mul_mod_self_left, Nat.mod_eq_of_lt hlt]
      unfold roundShift
      rw [hdiv, hmod, if_neg (by omega)]
      split <;> omega

theorem lt_two_pow_excess (n : Nat) : n < 2 ^ 24 * 2 ^ excess n := by
  have h : n < 2 ^ (n.log2 + 1) := Nat.lt_log2_self
  rw [← Nat.pow_add]
  exact Nat.lt_of_lt_of_le h (Nat.pow_le_pow_right (by decide) (by unfold excess; omega))

theorem two_pow_excess_le (h : excess n ≠ 0) : 2 ^ 23 * 2 ^ excess n ≤ n := by
  have hlog : n.log2 = 23 + excess n := by unfold excess at h ⊢; omega
  have hn : n ≠ 0 := by
    rintro rfl
    simp [excess] at h
  rw [← Nat.pow_add, ← hlog]
  exact Nat.log2_self_le hn

theorem excess_eq_zero (h : n < 2 ^ 24) : excess n = 0 := by
  refine Decidable.byContradiction fun he => ?_
  have hlow := two_pow_excess_le he
  have := Nat.pow_le_pow_right (show 0 < 2 by decide) (Nat.pos_of_ne_zero he)
  omega

theorem excess_mul_two_pow (h : 2 ^ 23 ≤ n) (i : Nat) : excess (n * 2 ^ i) = excess n + i := by
  have hn : n ≠ 0 := by omega
  have hlog : 23 ≤ n.log2 := (Nat.le_log2 hn).mpr h
  have hmul : (n * 2 ^ i).log2 = n.log2 + i := by
    rw [Nat.log2_eq_iff (Nat.mul_ne_zero hn (Nat.pos_iff_ne_zero.mp (Nat.two_pow_pos i)))]
    constructor
    · rw [Nat.pow_add]
      exact Nat.mul_le_mul_right _ (Nat.log2_self_le hn)
    · rw [Nat.add_right_comm, Nat.pow_add]
      exact Nat.mul_lt_mul_of_pos_right Nat.lt_log2_self (Nat.two_pow_pos i)
  unfold excess
  omega

/-- The digits of a short number end before those that rounding a smaller one cuts off. -/
theorem Short.two_pow_excess_dvd (h : Short a) (hn : n ≤ a) : 2 ^ excess n ∣ a := by
  obtain ⟨m, k, hm, rfl⟩ := h
  rcases Nat.eq_zero_or_pos (excess n) with he | he
  · rw [he]
    exact Nat.one_dvd _
  · have hlow := two_pow_excess_le (Nat.pos_iff_ne_zero.mp he)
    have hlt : 2 ^ (23 + excess n) < 2 ^ (24 + k) := by
      rw [Nat.pow_add, Nat.pow_add]
      calc 2 ^ 23 * 2 ^ excess n ≤ m * 2 ^ k := Nat.le_trans hlow hn
        _ < 2 ^ 24 * 2 ^ k := Nat.mul_lt_mul_of_pos_right hm (Nat.two_pow_pos k)
    have hk := (Nat.pow_lt_pow_iff_right (by decide)).mp hlt
    exact Nat.dvd_trans (Nat.pow_dvd_pow 2 (by omega)) (Nat.dvd_mul_left _ _)

theorem nearest_zero : nearest 0 = 0 := by
  decide

theorem nearest_eq_self (h : Short a) : nearest a = a := by
  obtain ⟨c, hc⟩ := h.two_pow_excess_dvd (Nat.le_refl a)
  have hround : roundShift a (excess a) = c := by
    conv => lhs; arg 1; rw [hc, Nat.mul_comm]
    exact roundShift_mul c (excess a)
  rw [nearest, hround, Nat.mul_comm]
  exact hc.symm

theorem nearest_le (h : Short a) (hn : n ≤ a) : nearest n ≤ a := by
  obtain ⟨c, rfl⟩ := h.two_pow_excess_dvd hn
  rw [Nat.mul_comm] at hn ⊢
  exact Nat.mul_le_mul_right _ (roundShift_le hn)

/-- A number times a power of two rounds as it does by itself, if it has 24 digits or none of the
powers is left. -/
theorem nearest_mul_two_pow (h : k = 0 ∨ 2 ^ 23 ≤ n) :
    nearest (n * 2 ^ k) = roundShift n (excess n) * 2 ^ (k + excess n) := by
  rcases h with rfl | h
  · rw [Nat.pow_zero, Nat.mul_one, Nat.zero_add, nearest]
  · rw [nearest, excess_mul_two_pow h, roundShift_mul_two_pow, Nat.add_comm k]

/-- Taking off `p` is not lost in the rounding. -/
theorem nearest_sub_lt (h : Short a) (hp : 0 < p) (hle : p ≤ a) (ha : a ≤ 2 ^ 24 * p) :
    nearest (a - p) < a := by
  by_cases he : excess (a - p) = 0
  · rw [nearest, he, roundShift_zero]
    omega
  · have hlow := two_pow_excess_le he
    obtain ⟨c, hc⟩ := h.two_pow_excess_dvd (Nat.sub_le a p)
    rw [Nat.mul_comm] at hc
    have hround : roundShift (a - p) (excess (a - p)) < c := roundShift_lt (by omega)
    have hmul := Nat.mul_lt_mul_of_pos_right hround (Nat.two_pow_pos (excess (a - p)))
    rw [nearest]
    omega

/-- Taking off `p` is lost in the rounding. -/
theorem nearest_sub_eq (h : Short a) (ha : 2 ^ 25 * p ≤ a) : nearest (a - p) = a := by
  have hlt := lt_two_pow_excess (a - p)
  obtain ⟨c, hc⟩ := h.two_pow_excess_dvd (Nat.sub_le a p)
  rw [Nat.mul_comm] at hc
  have hle : p ≤ a := by omega
  have hpow := Nat.two_pow_pos (excess (a - p))
  -- A larger `a` would leave more than 24 digits.
  have hcle : c ≤ 2 ^ 24 := by
    refine Nat.le_of_not_lt fun hlarge => ?_
    have := Nat.mul_le_mul_right (2 ^ excess (a - p)) hlarge
    rw [Nat.succ_mul] at this
    omega
  have hmul := Nat.mul_le_mul_right (2 ^ excess (a - p)) hcle
  have hround : roundShift (a - p) (excess (a - p)) = c := by
    conv => lhs; arg 1; rw [hc]
    refine roundShift_sub ?_ (by omega)
    rcases Nat.lt_or_eq_of_le (show 2 * p ≤ 2 ^ excess (a - p) by omega) with hlt | heq
    · exact .inl hlt
    · -- Half a unit is `2 ^ -25` of `2 ^ 24` units and of no other number of them.
      have hc' : c = 2 ^ 24 := by
        refine Nat.le_antisymm hcle (Nat.le_of_not_lt fun hsmall => ?_)
        have := Nat.mul_le_mul_right (2 ^ excess (a - p)) hsmall
        rw [Nat.succ_mul] at this
        omega
      exact .inr ⟨heq, by omega⟩
  rw [nearest, hround]
  exact hc.symm

end Chip8.Rounding
