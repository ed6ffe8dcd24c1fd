import Chip8.Config
import Chip8.Proofs.SinglePrecision

/-!
Seconds, and the periods of the rates that a host can keep. A backlog that a period is taken off
never turns into something that is not a number. In units of `2 ^ -149` seconds, a period taken off
it is natural subtraction followed by rounding.
-/

namespace Chip8.Single

open Float.Model (Format UnpackedFloat totalExponent)
open Float.Model.UnpackedFloat Rounding

/-- A time that is finite and not negative, and how many times `2 ^ -149` seconds it is. -/
def Amounts (x : Float32) (n : Nat) : Prop := Counts x.toModel.unpack n

/-- The same as a function. It ignores the sign, and what is not finite has none. -/
def grains (x : Float32) : Nat :=
  match x.toModel.unpack with
  | .finite _ m e _ => m * 2 ^ (e + 149).toNat
  | _ => 0

variable {x y p : Float32} {a b m k : Nat}

theorem le_def : x ≤ y ↔ x.toModel.unpack.le y.toModel.unpack = true := decide_eq_true_iff

theorem lt_def : x < y ↔ x.toModel.unpack.lt y.toModel.unpack = true := decide_eq_true_iff

theorem canonical_toModel (x : Float32) : Canonical x.toModel.unpack := canonical_unpack _

theorem unpack_zero : (0 : Float32).toModel.unpack = .zero .positive := rfl

theorem unpack_one :
    (1 : Float32).toModel.unpack = .finite .positive (2 ^ 23) ((126 : Nat) - 149) (by decide) := rfl

theorem Amounts.grains_eq (h : Amounts x a) : grains x = a := by
  unfold Amounts at h
  unfold grains
  generalize x.toModel.unpack = u at h
  cases h with
  | zero => rfl
  | @finite m k =>
    have hexp : ((k - 149 : Int) + 149).toNat = k := by omega
    simp only [hexp]

theorem amounts_grains (hfin : x.isFinite = true) (h : 0 ≤ x) : Amounts x (grains x) := by
  rw [le_def, unpack_zero] at h
  have hinf : x.toModel.unpack ≠ .infinity .positive := by
    intro hinf
    change x.toModel.unpack.isFinite = true at hfin
    rw [hinf] at hfin
    cases hfin
  obtain ⟨n, hn⟩ := (canonical_toModel x).exists_counts (.zero .positive) h hinf
  rwa [Amounts.grains_eq hn]

theorem amounts_zero : Amounts 0 0 := by
  rw [Amounts, unpack_zero]
  exact .zero _

theorem Amounts.short (h : Amounts x a) : Short a := Counts.short h

theorem Amounts.lt (h : Amounts x a) : a < 2 ^ 24 * 2 ^ 253 :=
  h.lt_of_canonical (canonical_toModel x)

theorem Amounts.le_iff (hx : Amounts x a) (hy : Amounts y b) : x ≤ y ↔ a ≤ b :=
  le_def.trans (Counts.le_iff hx hy)

theorem Amounts.lt_iff (hx : Amounts x a) (hy : Amounts y b) : x < y ↔ a < b :=
  lt_def.trans (Counts.lt_iff hx hy)

theorem Amounts.sub (hx : Amounts x a) (hy : Amounts y b) (h : y ≤ x) :
    Amounts (x - y) (nearest (a - b)) := by
  have hsub := counts_sub hx hy ((hy.le_iff hx).mp h)
  have hlt := Nat.lt_of_le_of_lt (nearest_le hx.short (Nat.sub_le a b)) hx.lt
  change Counts (unpack .binary32 (pack .binary32 _)) _
  rw [unpack_pack (hsub.canonical hlt)]
  exact hsub

theorem Amounts.zero_add (hx : Amounts x a) : Amounts (0 + x) a := by
  have hadd : Counts (add .binary32 (.zero .positive) x.toModel.unpack) a := by
    unfold Amounts at hx
    generalize x.toModel.unpack = u at hx
    cases hx with
    | zero s => cases s <;> exact .zero _
    | finite h hm hk => exact .finite h hm hk
  change Counts (unpack .binary32 (pack .binary32 (add .binary32
    (0 : Float32).toModel.unpack _))) _
  rw [unpack_zero, unpack_pack (hadd.canonical hx.lt)]
  exact hadd

theorem Amounts.lt_of_not_le (hp : Amounts p a) (h : ¬p ≤ x) (hx : x.isNaN = false) : x < p := by
  rw [le_def] at h
  exact lt_def.mpr ((canonical_toModel x).lt_of_not_le hp h hx)

theorem Amounts.isFinite (h : Amounts x a) : x.isFinite = true := by
  change x.toModel.unpack.isFinite = true
  unfold Amounts at h
  generalize x.toModel.unpack = u at h
  cases h <;> rfl

theorem Amounts.isNaN (h : Amounts x a) : x.isNaN = false := by
  change x.toModel.unpack.isNaN = false
  unfold Amounts at h
  generalize x.toModel.unpack = u at h
  cases h <;> rfl

theorem isNaN_add_time (hx : x.isNaN = false) (hy : y.isFinite = true) :
    (x + y).isNaN = false :=
  (isNaN_unpack_pack _).trans (isNaN_add hx hy)

theorem isNaN_sub_time (hx : x.isNaN = false) (hy : y.isFinite = true) :
    (x - y).isNaN = false :=
  (isNaN_unpack_pack _).trans (isNaN_sub hx hy)

/-- No time at all does not make a backlog hold a period that it does not hold. -/
theorem le_add_zero (p x : Float32) : p ≤ x + 0 ↔ p ≤ x := by
  have hadd : (x + 0).toModel.unpack = unpack .binary32 (pack .binary32
      (add .binary32 x.toModel.unpack (0 : Float32).toModel.unpack)) := rfl
  have hcan := canonical_toModel x
  rw [le_def, le_def, hadd, unpack_zero]
  generalize x.toModel.unpack = u at hcan ⊢
  cases u with
  | notANumber | infinity | finite =>
    exact iff_of_eq (congrArg (fun v => p.toModel.unpack.le v = true) (unpack_pack hcan))
  | zero s =>
    -- Zeros of two signs add up to the positive one, but compare alike.
    generalize p.toModel.unpack = v
    cases s <;> rcases v with ⟨⟨⟩⟩ | _ | ⟨⟨⟩⟩ | ⟨⟨⟩⟩ <;> exact Iff.rfl

/-! ### Periods -/

theorem amounts_rateMin : Amounts rateMin (10737418 * 2 ^ 119) := by
  have h : rateMin.toModel.unpack =
      .finite .positive 10737418 ((119 : Nat) - 149) (by decide) := rfl
  rw [Amounts, h]
  exact .finite _ (by decide) (.inr (by decide))

theorem amounts_rateMax : Amounts rateMax (16000000 * 2 ^ 145) := by
  have h : rateMax.toModel.unpack =
      .finite .positive 16000000 ((145 : Nat) - 149) (by decide) := rfl
  rw [Amounts, h]
  exact .finite _ (by decide) (.inr (by decide))

/-- The digits and the exponent of a rate that a host can keep. -/
theorem exists_unpack_rate {hz : Float32} (h : rateInRange hz = true) :
    ∃ (m k : Nat) (hm : 0 < m), hz.toModel.unpack = .finite .positive m (k - 149) hm ∧
      2 ^ 23 ≤ m ∧ m < 2 ^ 24 ∧ 119 ≤ k ∧ k ≤ 145 := by
  unfold rateInRange at h
  rw [Bool.and_eq_true, decide_eq_true_iff, decide_eq_true_iff] at h
  obtain ⟨hmin, hmax⟩ := h
  have hinf : hz.toModel.unpack ≠ .infinity .positive := by
    intro hinf
    rw [le_def, hinf] at hmax
    cases hmax
  obtain ⟨n, hn⟩ := (canonical_toModel hz).exists_counts amounts_rateMin (le_def.mp hmin) hinf
  rw [amounts_rateMin.le_iff hn] at hmin
  rw [Amounts.le_iff hn amounts_rateMax] at hmax
  generalize hz.toModel.unpack = u at hn
  cases hn with
  | zero s =>
    have := Nat.two_pow_pos 119
    omega
  | @finite m k hpos hm hk =>
    have hlow : 119 ≤ k := by
      refine Nat.le_of_not_lt fun hlt => ?_
      have hpow : 2 ^ k ≤ 2 ^ 118 := Nat.pow_le_pow_right (by decide) (by omega)
      have hprod := Nat.mul_le_mul (Nat.le_of_lt hm) hpow
      omega
    have hm' : 2 ^ 23 ≤ m := by omega
    have hhigh : k ≤ 145 := by
      refine Nat.le_of_not_lt fun hlt => ?_
      have hprod := Nat.mul_le_mul hm' (Nat.pow_le_pow_right (show 0 < 2 by decide) hlt)
      omega
    exact ⟨m, k, hpos, rfl, hm', hm, hlow, hhigh⟩

theorem div_one_rate (hm : 0 < m) (hlow : 2 ^ 23 ≤ m) (hhigh : m < 2 ^ 24) (hk : 119 ≤ k)
    (hmax : k ≤ 145) :
    div .binary32 (1 : Float32).toModel.unpack (.finite .positive m (k - 149) hm) =
      roundWithAccuracy .binary32 .positive (2 ^ 47 / m) ((251 - k : Nat) - 149)
        (accuracyOfFraction (2 ^ 47 % m) m) := by
  have hlog : m.log2 = 23 := (Nat.log2_eq_iff (by omega)).mpr ⟨hlow, hhigh⟩
  have htarget : min (((126 : Nat) - 149 : Int) - (k - 149)) (Format.binary32.targetExponent
      (totalExponent (2 ^ 23) ((126 : Nat) - 149) - totalExponent m (k - 149))) =
        ((251 - k : Nat) : Int) - 149 := by
    unfold totalExponent
    rw [hlog, Nat.log2_two_pow]
    change min (((126 : Nat) - 149 : Int) - (k - 149)) (max (_ - 24) (-149)) = _
    omega
  have hshift : (((126 : Nat) - 149 : Int) - (k - 149) - (((251 - k : Nat) : Int) - 149)).toNat =
      24 := by omega
  rw [unpack_one]
  unfold div divCore
  dsimp only
  rw [htarget, hshift]
  rfl

/-- The period of a rate that a host can keep is at least `2 ^ -20` seconds. -/
theorem exists_amounts_period {hz : Float32} (h : rateInRange hz = true) :
    ∃ n, Amounts (1 / hz) n ∧ 2 ^ 129 ≤ n := by
  obtain ⟨m, k, hm, hform, hlow, hhigh, hk, hmax⟩ := exists_unpack_rate h
  have hdiv := div_one_rate hm hlow hhigh hk hmax
  have hquotient : 2 ^ 23 ≤ 2 ^ 47 / m := (Nat.le_div_iff_mul_le hm).mpr (by omega)
  have hquotient' : 2 ^ 47 / m ≤ 2 ^ 24 := Nat.div_le_of_le_mul (by omega)
  have hcounts := counts_roundWithAccuracy (accuracyOfFraction (2 ^ 47 % m) m)
    (k := 251 - k) (.inr hquotient)
  rw [← hdiv, ← hform] at hcounts
  have hbounds := roundedMantissa_bounds (ExtendedMantissa.ofMantissaAndAccuracy (2 ^ 47 / m)
    (accuracyOfFraction (2 ^ 47 % m) m) >>> excess (2 ^ 47 / m))
  rw [mantissa_shiftRight, mantissa_ofMantissaAndAccuracy] at hbounds
  generalize ExtendedMantissa.roundedMantissa _ = c at hcounts hbounds
  -- The quotient has 24 or 25 digits, so that rounding cuts off one at most.
  have hexcess : excess (2 ^ 47 / m) ≤ 1 := by
    have hlog := (Nat.log2_lt (k := 25) (show 2 ^ 47 / m ≠ 0 by omega)).mpr (by omega)
    unfold excess
    omega
  have hc : 2 ^ 23 ≤ c ∧ c ≤ 2 ^ 25 := by
    rcases Nat.le_one_iff_eq_zero_or_eq_one.mp hexcess with he | he
    · rw [he, Nat.pow_zero, Nat.div_one] at hbounds
      omega
    · have := two_pow_excess_le (n := 2 ^ 47 / m) (by omega)
      rw [he] at hbounds this
      omega
  have hpow : 2 ^ 106 ≤ 2 ^ (251 - k + excess (2 ^ 47 / m)) :=
    Nat.pow_le_pow_right (by decide) (by omega)
  have hpow' : 2 ^ (251 - k + excess (2 ^ 47 / m)) ≤ 2 ^ 133 :=
    Nat.pow_le_pow_right (by decide) (by omega)
  have hvalue := Nat.mul_le_mul hc.1 hpow
  have hvalue' := Nat.mul_le_mul hc.2 hpow'
  refine ⟨_, ?_, Nat.le_trans (by decide) hvalue⟩
  change Counts (unpack .binary32 (pack .binary32 _)) _
  rw [unpack_pack (hcounts.canonical (Nat.lt_of_le_of_lt hvalue' (by decide)))]
  exact hcounts

end Chip8.Single
