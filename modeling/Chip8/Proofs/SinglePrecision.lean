import Mathlib
import Chip8.Proofs.Rounding

/-!
Arithmetic of single precision on numbers that are not negative. Every one is a multiple of
`2 ^ -149`, and by that count it is compared, and taken off another and rounded, as natural numbers
are.
-/

namespace Chip8.Single

open Float.Model (Format UnpackedFloat totalExponent)
open Float.Model.UnpackedFloat Rounding

/-- The form that the format has for a number, with 24 digits unless the exponent is the least. -/
inductive Canonical : UnpackedFloat → Prop
  | notANumber : Canonical .notANumber
  | infinity (s : Sign) : Canonical (.infinity s)
  | zero (s : Sign) : Canonical (.zero s)
  | finite (s : Sign) {m k : Nat} (h : 0 < m) (hm : m < 2 ^ 24) (hk : k = 0 ∨ 2 ^ 23 ≤ m)
      (hmax : k ≤ 253) : Canonical (.finite s m (k - 149) h)

/-- A number that is zero or positive, in that form, and how many times `2 ^ -149` it is. -/
inductive Counts : UnpackedFloat → Nat → Prop
  | zero (s : Sign) : Counts (.zero s) 0
  | finite {m k : Nat} (h : 0 < m) (hm : m < 2 ^ 24) (hk : k = 0 ∨ 2 ^ 23 ≤ m) :
      Counts (.finite .positive m (k - 149) h) (m * 2 ^ k)

variable {u v : UnpackedFloat} {a b m k : Nat}

theorem Counts.short (h : Counts u a) : Short a := by
  cases h with
  | zero => exact ⟨0, 0, by decide, rfl⟩
  | finite _ hm => exact ⟨_, _, hm, rfl⟩

theorem Counts.canonical (h : Counts u a) (ha : a < 2 ^ 24 * 2 ^ 253) : Canonical u := by
  cases h with
  | zero s => exact .zero s
  | @finite m k h hm hk =>
    refine .finite _ h hm hk ?_
    rcases hk with rfl | hlow
    · decide
    · refine Nat.le_of_not_lt fun hlt => ?_
      have hpow := Nat.mul_le_mul hlow (Nat.pow_le_pow_right (show 0 < 2 by decide) hlt)
      omega

theorem Counts.lt_of_canonical (h : Counts u a) (hu : Canonical u) : a < 2 ^ 24 * 2 ^ 253 := by
  cases h with
  | zero => exact Nat.mul_pos (Nat.two_pow_pos _) (Nat.two_pow_pos _)
  | @finite m k h hm hk =>
    have hmax : k ≤ 253 := by
      generalize he : (k : Int) - 149 = e at hu
      cases hu
      omega
    calc m * 2 ^ k < 2 ^ 24 * 2 ^ k := Nat.mul_lt_mul_of_pos_right hm (Nat.two_pow_pos k)
      _ ≤ 2 ^ 24 * 2 ^ 253 := Nat.mul_le_mul_left _ (Nat.pow_le_pow_right (by decide) hmax)

/-! ### Rounding -/

theorem mantissa_shiftRight (em : ExtendedMantissa) (k : Nat) :
    (em >>> k).mantissa = em.mantissa / 2 ^ k := by
  induction k with
  | zero =>
    rw [Nat.pow_zero, Nat.div_one]
    rfl
  | succ k ih =>
    change (em >>> k).mantissa / 2 = _
    rw [ih, Nat.div_div_eq_div_mul, Nat.pow_succ]

theorem mantissa_ofMantissaAndAccuracy (m : Nat) (acc : Accuracy) :
    (ExtendedMantissa.ofMantissaAndAccuracy m acc).mantissa = m := by
  cases acc with
  | exact => rfl
  | inexact order => cases order <;> rfl

theorem shiftRight_exact (m k : Nat) :
    ExtendedMantissa.mk m false false >>> k =
      ⟨m / 2 ^ k, decide (2 ^ k ≤ 2 * (m % 2 ^ k)), decide (2 * (m % 2 ^ k) % 2 ^ k ≠ 0)⟩ := by
  induction k with
  | zero =>
    simp only [Nat.pow_zero, Nat.div_one, Nat.mod_one]
    rfl
  | succ k ih =>
    change (ExtendedMantissa.mk m false false >>> k).shiftRightOne = _
    have hlt := Nat.mod_lt m (Nat.two_pow_pos k)
    have hmod : m % 2 ^ (k + 1) = m % 2 ^ k + 2 ^ k * (m / 2 ^ k % 2) := by
      rw [Nat.pow_succ, Nat.mod_mul]
    rw [ih, ExtendedMantissa.shiftRightOne, ExtendedMantissa.mk.injEq]
    refine ⟨?_, ?_, ?_⟩
    · rw [Nat.div_div_eq_div_mul, Nat.pow_succ]
    · rw [hmod, Nat.pow_succ]
      rcases Nat.mod_two_eq_zero_or_one (m / 2 ^ k) with hbit | hbit <;> simp [hbit] <;> omega
    · -- The sticky bit tells whether anything was shifted out below the round bit.
      have hrest : 2 * (m % 2 ^ (k + 1)) % 2 ^ (k + 1) = 2 * (m % 2 ^ k) := by
        rw [hmod, Nat.pow_succ, Nat.mul_comm (2 ^ k) 2, Nat.mul_mod_mul_left,
          Nat.add_mul_mod_self_left, Nat.mod_mod]
      rw [hrest, ← Bool.decide_or]
      apply decide_eq_decide.mpr
      by_cases hhalf : 2 ^ k ≤ 2 * (m % 2 ^ k)
      · exact ⟨fun _ => by omega, fun _ => .inl hhalf⟩
      · rw [Nat.mod_eq_of_lt (Nat.lt_of_not_le hhalf)]
        exact ⟨fun h => h.resolve_left hhalf, .inr⟩

theorem roundedMantissa_shiftRight (m k : Nat) :
    (ExtendedMantissa.mk m false false >>> k).roundedMantissa = roundShift m k := by
  have hlt := Nat.mod_lt m (Nat.two_pow_pos k)
  rw [shiftRight_exact]
  unfold roundShift
  by_cases hhalf : 2 ^ k ≤ 2 * (m % 2 ^ k)
  · have hsticky : 2 * (m % 2 ^ k) % 2 ^ k = 2 * (m % 2 ^ k) - 2 ^ k := by
      rw [Nat.mod_eq_sub_mod hhalf, Nat.mod_eq_of_lt (by omega)]
    rw [if_neg (Nat.not_lt.mpr hhalf), decide_eq_true hhalf, hsticky]
    by_cases htie : 2 * (m % 2 ^ k) = 2 ^ k
    · rw [if_pos htie, decide_eq_false (by omega)]
      rfl
    · rw [if_neg htie, decide_eq_true (by omega)]
      rfl
  · rw [if_pos (Nat.lt_of_not_le hhalf), decide_eq_false hhalf]
    cases decide (2 * (m % 2 ^ k) % 2 ^ k ≠ 0) <;> rfl

theorem roundedMantissa_bounds (em : ExtendedMantissa) :
    em.mantissa ≤ em.roundedMantissa ∧ em.roundedMantissa ≤ em.mantissa + 1 := by
  unfold ExtendedMantissa.roundedMantissa
  cases em.accuracy with
  | exact => exact ⟨Nat.le_refl _, Nat.le_succ _⟩
  | inexact order => cases order <;> simp only [Accuracy.roundToNearestEven] <;> omega

theorem shiftToTargetExponent_eq (m k : Nat) (acc : Accuracy) :
    shiftToTargetExponent .binary32 m (k - 149) acc =
      (ExtendedMantissa.ofMantissaAndAccuracy m acc >>> excess m,
        ((k + excess m : Nat) : Int) - 149) := by
  have hshift : (Format.binary32.targetExponent (totalExponent m (k - 149)) - (k - 149)).toNat =
      excess m := by
    change (max ((m.log2 + 1 + (k - 149) : Int) - 24) (-149) - (k - 149)).toNat = _
    unfold excess
    omega
  unfold shiftToTargetExponent shiftToExponent
  dsimp only
  rw [hshift]
  congr 1
  omega

/-- A mantissa that rounding has made `2 ^ 24` is halved once more. -/
theorem counts_shiftToTargetExponent (hm : m ≤ 2 ^ 24) (hk : k = 0 ∨ 2 ^ 23 ≤ m) :
    Counts (let (em, e) := shiftToTargetExponent .binary32 m (k - 149) .exact
      if h : em.mantissa = 0 then .zero .positive
      else .finite .positive em.mantissa e (Nat.pos_of_ne_zero h)) (m * 2 ^ k) := by
  have hmantissa : (ExtendedMantissa.ofMantissaAndAccuracy m .exact >>> excess m).mantissa =
      m / 2 ^ excess m := mantissa_shiftRight ..
  rw [shiftToTargetExponent_eq]
  simp only [hmantissa]
  rcases Nat.lt_or_eq_of_le hm with hlt | rfl
  · simp only [excess_eq_zero hlt, Nat.pow_zero, Nat.div_one, Nat.add_zero]
    split
    · rename_i hzero
      rw [hzero, Nat.zero_mul]
      exact .zero _
    · exact .finite _ hlt hk
  · have hhalf : 2 ^ 24 * 2 ^ k = 2 ^ 23 * 2 ^ (k + 1) := by
      rw [Nat.pow_succ 2 k]
      omega
    rw [hhalf]
    exact .finite (by decide) (by decide) (.inr (by decide))

theorem counts_roundWithAccuracy (acc : Accuracy) (hk : k = 0 ∨ 2 ^ 23 ≤ m) :
    Counts (roundWithAccuracy .binary32 .positive m (k - 149) acc)
      ((ExtendedMantissa.ofMantissaAndAccuracy m acc >>> excess m).roundedMantissa *
        2 ^ (k + excess m)) := by
  have hpow := Nat.two_pow_pos (excess m)
  have hbounds :=
    roundedMantissa_bounds (ExtendedMantissa.ofMantissaAndAccuracy m acc >>> excess m)
  rw [mantissa_shiftRight, mantissa_ofMantissaAndAccuracy] at hbounds
  have hhigh : m / 2 ^ excess m < 2 ^ 24 :=
    (Nat.div_lt_iff_lt_mul hpow).mpr (lt_two_pow_excess m)
  unfold roundWithAccuracy
  rw [shiftToTargetExponent_eq]
  apply counts_shiftToTargetExponent
  · omega
  · by_cases he : excess m = 0
    · rw [he, Nat.pow_zero, Nat.div_one] at hbounds
      rw [he]
      omega
    · have hlow : 2 ^ 23 ≤ m / 2 ^ excess m :=
        (Nat.le_div_iff_mul_le hpow).mpr (two_pow_excess_le he)
      omega

theorem counts_roundWithAccuracy_exact (hk : k = 0 ∨ 2 ^ 23 ≤ m) :
    Counts (roundWithAccuracy .binary32 .positive m (k - 149) .exact) (nearest (m * 2 ^ k)) := by
  have h := counts_roundWithAccuracy .exact hk
  rw [ExtendedMantissa.ofMantissaAndAccuracy, roundedMantissa_shiftRight] at h
  rwa [nearest_mul_two_pow hk]

theorem decreaseExponent_eq (m k j : Nat) :
    decreaseExponent m (k - 149) (j - 149) = (m * 2 ^ (k - j), ((min k j : Nat) : Int) - 149) := by
  have hshift : ((k - 149 : Int) - (j - 149)).toNat = k - j := by omega
  unfold decreaseExponent
  dsimp only
  rw [hshift, Nat.shiftLeft_eq, Prod.mk.injEq]
  exact ⟨rfl, by omega⟩

theorem mul_two_pow_sub_min (m k j : Nat) : m * 2 ^ (k - j) * 2 ^ min k j = m * 2 ^ k := by
  rw [Nat.mul_assoc, ← Nat.pow_add]
  congr 2
  omega

theorem counts_round (hm : 0 < m) (k : Nat) :
    Counts (UnpackedFloat.round .binary32 .positive m (k - 149)) (nearest (m * 2 ^ k)) := by
  have htarget : Format.binary32.targetExponent (totalExponent m (k - 149)) =
      ((k + m.log2 - 23 : Nat) : Int) - 149 := by
    change max ((m.log2 + 1 + (k - 149) : Int) - 24) (-149) = _
    omega
  unfold UnpackedFloat.round
  rw [htarget]
  dsimp only
  rw [decreaseExponent_eq, ← mul_two_pow_sub_min m k (k + m.log2 - 23)]
  apply counts_roundWithAccuracy_exact
  by_cases hzero : min k (k + m.log2 - 23) = 0
  · exact .inl hzero
  · right
    calc 2 ^ 23 ≤ 2 ^ (m.log2 + (k - (k + m.log2 - 23))) :=
          Nat.pow_le_pow_right (by decide) (by omega)
      _ = 2 ^ m.log2 * 2 ^ (k - (k + m.log2 - 23)) := Nat.pow_add ..
      _ ≤ m * 2 ^ (k - (k + m.log2 - 23)) :=
          Nat.mul_le_mul_right _ (Nat.log2_self_le (Nat.pos_iff_ne_zero.mp hm))

theorem counts_normalize (m k : Nat) :
    Counts (UnpackedFloat.normalize .binary32 m (k - 149) .positive) (nearest (m * 2 ^ k)) := by
  unfold UnpackedFloat.normalize
  obtain _ | m := m
  · rw [Nat.zero_mul, nearest_zero]
    exact .zero _
  · exact counts_round m.succ_pos k

/-- A difference is the nearest number to the difference of the counts. -/
theorem counts_sub (hu : Counts u a) (hv : Counts v b) (h : b ≤ a) :
    Counts (sub .binary32 u v) (nearest (a - b)) := by
  cases hv with
  | zero s =>
    rw [Nat.sub_zero, nearest_eq_self hu.short]
    cases hu with
    | zero s' => cases s <;> cases s' <;> exact .zero _
    | finite hpos hm hk => exact .finite hpos hm hk
  | @finite m' k' hpos' hm' hk' =>
    cases hu with
    | zero s =>
      have := Nat.mul_pos hpos' (Nat.two_pow_pos k')
      omega
    | @finite m k hpos hm hk =>
      have hmin : min ((k : Int) - 149) (k' - 149) = (min k k' : Nat) - 149 := by omega
      unfold sub
      dsimp only
      rw [hmin, decreaseExponent_eq, decreaseExponent_eq]
      -- Both are brought to the lesser exponent, where they are taken off each other exactly.
      have ha : m * 2 ^ (k - min k k') * 2 ^ min k k' = m * 2 ^ k := by
        have := mul_two_pow_sub_min m k (min k k')
        rwa [Nat.min_eq_right (Nat.min_le_left k k')] at this
      have hb : m' * 2 ^ (k' - min k k') * 2 ^ min k k' = m' * 2 ^ k' := by
        have := mul_two_pow_sub_min m' k' (min k k')
        rwa [Nat.min_eq_right (Nat.min_le_right k k')] at this
      rw [← ha, ← hb] at h ⊢
      rw [← Nat.sub_mul]
      have hle := Nat.le_of_mul_le_mul_right h (Nat.two_pow_pos _)
      have hcast : Sign.positive.apply (m * 2 ^ (k - min k k') : Nat) -
          Sign.positive.apply (m' * 2 ^ (k' - min k k') : Nat) =
            (m * 2 ^ (k - min k k') - m' * 2 ^ (k' - min k k') : Nat) :=
        (Int.ofNat_sub hle).symm
      rw [hcast]
      exact counts_normalize ..

/-! ### Comparing -/

theorem mul_two_pow_lt {m' k' : Nat} (hm : m < 2 ^ 24) (hk : k' = 0 ∨ 2 ^ 23 ≤ m') (h : k < k') :
    m * 2 ^ k < m' * 2 ^ k' := by
  have hlow : 2 ^ 23 ≤ m' := by omega
  calc m * 2 ^ k < 2 ^ 24 * 2 ^ k := Nat.mul_lt_mul_of_pos_right hm (Nat.two_pow_pos k)
    _ = 2 ^ 23 * 2 ^ (k + 1) := by rw [Nat.pow_succ 2 k]; omega
    _ ≤ m' * 2 ^ k' := Nat.mul_le_mul hlow (Nat.pow_le_pow_right (by decide) h)

/-- Numbers compare as their counts do, since the exponent goes before the digits. -/
theorem compare_counts (hu : Counts u a) (hv : Counts v b) : u.compare v = some (compare a b) := by
  cases hu with
  | zero s =>
    cases hv with
    | zero s' => cases s <;> cases s' <;> rfl
    | @finite m k h hm hk =>
      rw [Nat.compare_eq_lt.mpr (Nat.mul_pos h (Nat.two_pow_pos k))]
      cases s <;> rfl
  | @finite m k h hm hk =>
    cases hv with
    | zero s =>
      rw [Nat.compare_eq_gt.mpr (Nat.mul_pos h (Nat.two_pow_pos k))]
      cases s <;> rfl
    | @finite m' k' h' hm' hk' =>
      change some ((compare (k - 149 : Int) (k' - 149)).then (compare m m')) = _
      rcases Nat.lt_trichotomy k k' with hlt | rfl | hgt
      · rw [Nat.compare_eq_lt.mpr (mul_two_pow_lt hm hk' hlt), Int.compare_eq_lt.mpr (by omega)]
        rfl
      · have hpow := Nat.two_pow_pos k
        rw [Int.compare_eq_eq.mpr rfl]
        change some (compare m m') = _
        rcases Nat.lt_trichotomy m m' with hlt | rfl | hgt
        · rw [Nat.compare_eq_lt.mpr hlt,
            Nat.compare_eq_lt.mpr (Nat.mul_lt_mul_of_pos_right hlt hpow)]
        · rw [Nat.compare_eq_eq.mpr rfl, Nat.compare_eq_eq.mpr rfl]
        · rw [Nat.compare_eq_gt.mpr hgt,
            Nat.compare_eq_gt.mpr (Nat.mul_lt_mul_of_pos_right hgt hpow)]
      · rw [Nat.compare_eq_gt.mpr (mul_two_pow_lt hm' hk hgt), Int.compare_eq_gt.mpr (by omega)]
        rfl

theorem Counts.le_iff (hu : Counts u a) (hv : Counts v b) : u.le v = true ↔ a ≤ b := by
  unfold UnpackedFloat.le
  rw [compare_counts hu hv]
  exact Nat.isLE_compare

theorem Counts.lt_iff (hu : Counts u a) (hv : Counts v b) : u.lt v = true ↔ a < b := by
  unfold UnpackedFloat.lt
  rw [compare_counts hu hv, beq_iff_eq, Option.some_inj, Nat.compare_eq_lt]

/-- What is not below a number that counts does so too, unless it is infinite. -/
theorem Canonical.exists_counts (hv : Canonical v) (hu : Counts u a) (h : u.le v = true)
    (hfin : v ≠ .infinity .positive) : ∃ b, Counts v b := by
  cases hv with
  | notANumber => cases hu <;> cases h
  | infinity s =>
    cases s with
    | positive => exact absurd rfl hfin
    | negative => cases hu <;> cases h
  | zero s => exact ⟨0, .zero s⟩
  | finite s hpos hm hk =>
    cases s with
    | positive => exact ⟨_, .finite hpos hm hk⟩
    | negative => cases hu <;> cases h

theorem Canonical.lt_of_not_le (hv : Canonical v) (hu : Counts u a) (h : ¬u.le v = true)
    (hnan : v.isNaN = false) : v.lt u = true := by
  cases hv with
  | notANumber => cases hnan
  | infinity s =>
    cases s with
    | positive => cases hu <;> exact absurd rfl h
    | negative => cases hu <;> rfl
  | zero s =>
    cases hu with
    | zero => exact absurd rfl h
    | finite => rfl
  | finite s hpos hm hk =>
    cases s with
    | positive =>
      have hv := Counts.finite hpos hm hk
      rw [hu.le_iff hv] at h
      exact (hv.lt_iff hu).mpr (Nat.lt_of_not_le h)
    | negative => cases hu <;> rfl

/-! ### Packing -/

theorem bias_eq : (Format.binary32.exponentBias : Int) + (23 : Nat) = 150 := rfl

theorem toNat_one_append (f : BitVec 23) : (1#1 ++ f).toNat = 2 ^ 23 + f.toNat := by
  rw [BitVec.toNat_append, ← Nat.shiftLeft_add_eq_or_of_lt f.isLt]
  rfl

theorem canonical_unpack (w : BitVec 32) : Canonical (unpack .binary32 w) := by
  have hmantissa : (@unpackMantissa .binary32 w).toNat < 2 ^ 23 := BitVec.isLt _
  have hone := toNat_one_append (@unpackMantissa .binary32 w)
  unfold unpack
  dsimp only
  split
  · split
    · exact .infinity _
    · exact .notANumber
  · rename_i hinf
    split
    · rename_i hleast
      split
      · exact .zero _
      · rename_i hne
        have hpos := Nat.pos_of_ne_zero fun h => hne (BitVec.eq_of_toNat_eq h)
        rw [bias_eq, hleast]
        exact .finite (k := 0) _ hpos (by omega) (.inl rfl) (by decide)
    · rename_i hleast
      have hpos : 0 < (@unpackExponent .binary32 w).toNat :=
        Nat.pos_of_ne_zero fun h => hleast (BitVec.eq_of_toNat_eq h)
      have hmax : (@unpackExponent .binary32 w).toNat ≤ 254 := by
        have hlt : (@unpackExponent .binary32 w).toNat < 256 := BitVec.isLt _
        have hne : (@unpackExponent .binary32 w).toNat ≠ 255 :=
          fun h => hinf (BitVec.eq_of_toNat_eq h)
        omega
      have hexp : ((@unpackExponent .binary32 w).toNat : Int) -
          (Format.binary32.exponentBias + (23 : Nat)) =
            ((@unpackExponent .binary32 w).toNat - 1 : Nat) - 149 := by
        rw [bias_eq]
        omega
      rw [hexp]
      exact .finite _ _ (by omega) (.inr (by omega)) (by omega)

/-- No number in the form of the format is changed by packing it. -/
theorem unpack_pack (h : Canonical u) : unpack .binary32 (pack .binary32 u) = u := by
  cases h with
  | notANumber => rfl
  | infinity s => cases s <;> rfl
  | zero s => cases s <;> rfl
  | @finite s m k h hm hk hmax =>
    have hbiased : ((k - 149 : Int) + Format.binary32.exponentBias + (23 : Nat)).toNat = k + 1 := by
      rw [Int.add_assoc, bias_eq]
      omega
    unfold pack
    dsimp only
    rw [hbiased, if_neg (by omega)]
    split
    · rename_i hlog
      have hlow : 2 ^ 23 ≤ m := by
        have := Nat.log2_self_le (Nat.pos_iff_ne_zero.mp h)
        rwa [Nat.succ.inj hlog] at this
      have hexp : (BitVec.ofNat 8 (k + 1)).toNat = k + 1 := by
        rw [BitVec.toNat_ofNat, Nat.mod_eq_of_lt (by omega)]
      have hinf : BitVec.ofNat 8 (k + 1) ≠ -1#8 := fun h => by
        have : k + 1 = 255 := hexp.symm.trans (congrArg BitVec.toNat h)
        omega
      have hleast : BitVec.ofNat 8 (k + 1) ≠ 0#8 := fun h => by
        cases hexp.symm.trans (congrArg BitVec.toNat h)
      have hmantissa : (1#1 ++ BitVec.ofNat 23 m).toNat = m := by
        rw [toNat_one_append, BitVec.toNat_ofNat]
        omega
      unfold unpack
      simp only [unpackMantissa_packComponents, unpackExponent_packComponents, if_neg hinf,
        if_neg hleast, unpackSign_packComponents, Sign.ofBitVec_toBitVec, hmantissa, hexp, bias_eq]
      congr 1
      omega
    · rename_i hlog
      have hne := Nat.pos_iff_ne_zero.mp h
      have hlow : m < 2 ^ 23 := by
        have hlt : m.log2 < 24 := (Nat.log2_lt hne).mpr hm
        have hlog : m.log2 + 1 ≠ 24 := hlog
        exact (Nat.log2_lt hne).mp (by omega)
      obtain rfl : k = 0 := by omega
      have hmantissa : (BitVec.ofNat 23 m).toNat = m := by
        rw [BitVec.toNat_ofNat, Nat.mod_eq_of_lt hlow]
      have hzero : BitVec.ofNat 23 m ≠ 0#23 := fun h =>
        hne (hmantissa.symm.trans (congrArg BitVec.toNat h))
      have hinf : 0#8 ≠ -1#8 := by decide
      unfold unpack
      simp only [unpackMantissa_packComponents, unpackExponent_packComponents, if_neg hinf,
        dif_neg hzero, unpackSign_packComponents, Sign.ofBitVec_toBitVec, hmantissa, bias_eq,
        if_true]
      rfl

/-! ### What is not a number -/

theorem isNaN_unpack_packComponents (s : Sign) {e : BitVec 8} (h : e ≠ -1#8) (f : BitVec 23) :
    (unpack .binary32 (packComponents .binary32 s e f)).isNaN = false := by
  unfold unpack
  simp only [unpackExponent_packComponents, unpackMantissa_packComponents, if_neg h]
  split
  · split <;> rfl
  · rfl

theorem isNaN_unpack_pack (u : UnpackedFloat) :
    (unpack .binary32 (pack .binary32 u)).isNaN = u.isNaN := by
  cases u with
  | notANumber => rfl
  | infinity s => cases s <;> rfl
  | zero s => cases s <;> rfl
  | finite s m e h =>
    unfold pack
    dsimp only
    split
    · cases s <;> rfl
    · rename_i hexp
      split
      · refine isNaN_unpack_packComponents s (fun hinf => ?_) _
        have heq := congrArg BitVec.toNat hinf
        rw [BitVec.toNat_ofNat, Nat.mod_eq_of_lt (by omega)] at heq
        change _ = 255 at heq
        omega
      · exact isNaN_unpack_packComponents s (by decide) _

theorem isNaN_normalize (n e : Int) (s : Sign) :
    (UnpackedFloat.normalize .binary32 n e s).isNaN = false := by
  have hround (s : Sign) (m : Nat) : (UnpackedFloat.round .binary32 s m e).isNaN = false := by
    unfold UnpackedFloat.round roundWithAccuracy
    dsimp only
    split <;> rfl
  unfold UnpackedFloat.normalize
  split
  · exact hround ..
  · rfl
  · exact hround ..

theorem isNaN_add (hu : u.isNaN = false) (hv : v.isFinite = true) :
    (add .binary32 u v).isNaN = false := by
  cases v with
  | notANumber | infinity => cases hv
  | zero t =>
    cases u with
    | notANumber => cases hu
    | infinity s | finite s => rfl
    | zero s => cases s <;> cases t <;> rfl
  | finite t m e h =>
    cases u with
    | notANumber => cases hu
    | infinity s | zero s => rfl
    | finite s => exact isNaN_normalize ..

theorem sub_eq_add_neg (u v : UnpackedFloat) : sub .binary32 u v = add .binary32 u v.neg := by
  have happly (s : Sign) (n : Int) : (-s).apply n = -s.apply n := by
    cases s
    · exact (Int.neg_neg n).symm
    · rfl
  cases u with
  | notANumber => rfl
  | infinity s | zero s => cases v <;> rfl
  | finite s m e h =>
    cases v with
    | notANumber | infinity t | zero t => rfl
    | finite t m' e' h' => simp only [sub, add, UnpackedFloat.neg, happly, Int.sub_eq_add_neg]

theorem isNaN_sub (hu : u.isNaN = false) (hv : v.isFinite = true) :
    (sub .binary32 u v).isNaN = false := by
  have hneg : v.neg.isFinite = true := by rw [← hv]; cases v <;> rfl
  rw [sub_eq_add_neg]
  exact isNaN_add hu hneg

end Chip8.Single
