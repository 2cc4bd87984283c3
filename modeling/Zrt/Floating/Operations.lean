import Mathlib
import Zrt.Floating.Mantissa

/-! What the operations on unpacked numbers compute: the exact result, rounded to the digits of the
format. -/
namespace Zrt.Floating

open Float.Model UnpackedFloat Rounding

variable {spec : Format} {x q r : ℚ} {m n num den : Nat} {e : Int}

/-- A number that is not negative, its mantissa filling the format, and its value. -/
inductive Denotes (spec : Format) : UnpackedFloat → ℚ → Prop where
  | zero (sign : Sign) : Denotes spec (.zero sign) 0
  | finite {m : Nat} {e : Int} (hm : 0 < m) (hbits : m.log2 + 1 = spec.mantissaBits) :
      Denotes spec (.finite .positive m e hm) (m * 2 ^ e)

theorem Denotes.nonneg {u : UnpackedFloat} (h : Denotes spec u q) : 0 ≤ q := by
  cases h with
  | zero s => exact le_refl _
  | finite hm hbits => exact mul_nonneg (Nat.cast_nonneg _) (two_zpow_pos _).le

/-- Rounding a mantissa with enough digits rounds the number it stands for. -/
theorem denotes_roundWithAccuracy (spec : Format) {acc : Accuracy}
    (h : Extends (.ofMantissaAndAccuracy m acc) x) (hbits : spec.mantissaBits ≤ m.log2 + 1)
    (hmin : spec.minExponent + spec.mantissaBits ≤ m.log2 + 1 + e) :
    Denotes spec (roundWithAccuracy spec .positive m e acc)
      (roundTo spec.mantissaBits (x * 2 ^ e)) := by
  have hp := one_lt_mantissaBits spec
  have hm : m ≠ 0 := by
    rintro rfl
    rw [Nat.log2_zero] at hbits
    omega
  obtain ⟨em, hshift, hround⟩ := shiftToTargetExponent_eq h hm hbits hmin
  have hlow := two_pow_le_digits (p := spec.mantissaBits) (by omega)
    (mul_pos (h.pos hm) (two_zpow_pos e))
  have hhigh := digits_le_two_pow spec.mantissaBits (x * 2 ^ e)
  rw [← hround] at hlow hhigh
  have hmin' : spec.minExponent ≤ unitExponent spec.mantissaBits (x * 2 ^ e) := by
    rw [unitExponent, h.log_mul hm]
    omega
  obtain ⟨hfinal, hvalue⟩ := carry_eq (m := em.roundedMantissa) (by exact_mod_cast hlow)
    (by exact_mod_cast hhigh) hmin'
  have hpos : ¬ (shiftToTargetExponent spec em.roundedMantissa
      (unitExponent spec.mantissaBits (x * 2 ^ e)) .exact).1.mantissa = 0 := by
    intro hz
    rw [hz, Nat.log2_zero] at hfinal
    omega
  unfold roundWithAccuracy
  rw [hshift]
  dsimp only
  rw [dif_neg hpos, roundTo, ← hround, Int.cast_natCast, ← hvalue]
  exact .finite _ hfinal

/-- Rounding a number in range, whatever its exponent is. -/
theorem denotes_round (spec : Format) (hm : 0 < m)
    (hmin : spec.minExponent + spec.mantissaBits ≤ m.log2 + 1 + e) :
    Denotes spec (UnpackedFloat.round spec .positive m e)
      (roundTo spec.mantissaBits (m * 2 ^ e)) := by
  obtain ⟨k, hk⟩ : ∃ k, k = (e - (m.log2 + 1 + e - spec.mantissaBits)).toNat := ⟨_, rfl⟩
  have hlog : (m <<< k).log2 = m.log2 + k := by
    rw [Nat.shiftLeft_eq, Nat.log2_eq_iff (by positivity)]
    constructor
    · rw [Nat.pow_add]
      exact Nat.mul_le_mul_right _ (Nat.log2_self_le hm.ne')
    · rw [Nat.add_right_comm, Nat.pow_add]
      exact Nat.mul_lt_mul_of_pos_right Nat.lt_log2_self (Nat.two_pow_pos k)
  have hvalue : ((m <<< k : Nat) : ℚ) * 2 ^ (e - k) = m * 2 ^ e := by
    rw [Nat.shiftLeft_eq, Nat.cast_mul, Nat.cast_pow, Nat.cast_ofNat, ← zpow_natCast, mul_assoc,
      ← zpow_add₀ two_ne_zero]
    congr 2
    omega
  have h := denotes_roundWithAccuracy spec (e := e - k) (extends_exact (m <<< k))
    (by omega) (by omega)
  rw [hvalue] at h
  unfold UnpackedFloat.round decreaseExponent
  rw [targetExponent_eq hmin]
  dsimp only
  rw [← hk]
  exact h

theorem denotes_ofNat (hmin : spec.minExponent + spec.mantissaBits ≤ 1) (n : Nat) :
    Denotes spec (UnpackedFloat.ofNat spec n) (roundTo spec.mantissaBits n) := by
  unfold UnpackedFloat.ofNat UnpackedFloat.ofInt UnpackedFloat.normalize
  rcases Nat.eq_zero_or_pos n with rfl | hn
  · have hzero : ((0 : Nat) : ℚ) = 0 := Nat.cast_zero
    rw [hzero, roundTo_zero]
    exact .zero .positive
  · have hcompare : compare (n : Int) 0 = .gt := Int.compare_eq_gt.mpr (by omega)
    rw [hcompare]
    have h := denotes_round spec (e := 0) hn (by omega)
    rw [zpow_zero, mul_one] at h
    exact h

/-- The scaled mantissa that a large count is converted through. -/
theorem denotes_ofScientific (hn : n ≠ 0) (hmin : spec.minExponent + spec.mantissaBits ≤ 1) :
    Denotes spec (UnpackedFloat.ofScientific spec n 0) (roundTo spec.mantissaBits n) := by
  have hvalue :
      ((n <<< spec.mantissaBits * 10 ^ 0 : Nat) : ℚ) * 2 ^ (-spec.mantissaBits + 0 : Int) =
      n := by
    rw [Nat.shiftLeft_eq]
    push_cast
    rw [add_zero, zpow_neg, zpow_natCast, mul_one, mul_assoc, mul_inv_cancel₀ (by positivity),
      mul_one]
  have hlog : spec.mantissaBits ≤ (n <<< spec.mantissaBits * 10 ^ 0).log2 := by
    rw [Nat.pow_zero, Nat.mul_one, Nat.shiftLeft_eq, Nat.le_log2 (by positivity)]
    exact Nat.le_mul_of_pos_left _ (Nat.pos_of_ne_zero hn)
  have h := denotes_roundWithAccuracy spec (e := -spec.mantissaBits + 0)
    (extends_exact (n <<< spec.mantissaBits * 10 ^ 0)) (by omega) (by omega)
  rw [hvalue] at h
  have hpow : (0 : Int) ≤ 2 ^ spec.exponentBits := by positivity
  unfold UnpackedFloat.ofScientific
  rw [dif_neg hn, if_neg (Int.not_lt.mpr hpow), if_neg (by omega), if_pos (Int.le_refl 0)]
  exact h

theorem denotes_mul {u v : UnpackedFloat} (hu : Denotes spec u q) (hv : Denotes spec v r)
    (hmin : q * r ≠ 0 → spec.minExponent + spec.mantissaBits ≤ Int.log 2 (q * r) + 1) :
    Denotes spec (UnpackedFloat.mul spec u v) (roundTo spec.mantissaBits (q * r)) := by
  cases hu with
  | zero s =>
    rw [zero_mul, roundTo_zero]
    cases hv with
    | zero s' => exact .zero _
    | finite hm' hbits' => exact .zero _
  | @finite m e hm hbits =>
    cases hv with
    | zero s' =>
      rw [mul_zero, roundTo_zero]
      exact .zero _
    | @finite m' e' hm' hbits' =>
      have hmul : (m : ℚ) * 2 ^ e * (m' * 2 ^ e') = ((m * m' : Nat) : ℚ) * 2 ^ (e + e') := by
        rw [zpow_add₀ two_ne_zero]
        push_cast
        ring
      have hpos := Nat.mul_pos hm hm'
      rw [hmul] at hmin ⊢
      have hmin' := hmin (mul_pos (Nat.cast_pos.mpr hpos) (two_zpow_pos _)).ne'
      rw [log_natCast_mul hpos] at hmin'
      have hlog : m.log2 ≤ (m * m').log2 :=
        (Nat.le_log2 hpos.ne').mpr ((Nat.log2_self_le hm.ne').trans (Nat.le_mul_of_pos_right m hm'))
      exact denotes_roundWithAccuracy spec (extends_exact _) (by omega) (by omega)

theorem divCore_eq {m' : Nat} {e' : Int} (hbits : m.log2 + 1 = spec.mantissaBits)
    (hbits' : m'.log2 + 1 = spec.mantissaBits)
    (hmin : spec.minExponent + spec.mantissaBits ≤ e - e') :
    divCore spec m e m' e' = (m * 2 ^ spec.mantissaBits / m', e - e' - spec.mantissaBits,
      accuracyOfFraction (m * 2 ^ spec.mantissaBits % m') m') := by
  have htarget : min (e - e') (spec.targetExponent (totalExponent m e - totalExponent m' e')) =
      e - e' - spec.mantissaBits := by
    simp only [Format.targetExponent, totalExponent]
    omega
  have hshift : (e - e' - (e - e' - spec.mantissaBits)).toNat = spec.mantissaBits := by omega
  unfold divCore
  rw [htarget]
  dsimp only
  rw [hshift, Nat.shiftLeft_eq]

theorem div_add_mod_div (hden : 0 < den) :
    ((num / den : Nat) : ℚ) + ((num % den : Nat) : ℚ) / den = num / den := by
  have hne : (den : ℚ) ≠ 0 := Nat.cast_ne_zero.mpr hden.ne'
  have h : ((num / den : Nat) : ℚ) * den + (num % den : Nat) = num := by
    exact_mod_cast Nat.div_add_mod' num den
  field_simp
  linarith

/-- The quotient of two numbers lies below twice the quotient of the powers of two under them. -/
theorem log_div_le {m' : Nat} {e' : Int} (hm : 0 < m) (hm' : 0 < m')
    (hbits : m.log2 = m'.log2) :
    Int.log 2 ((m : ℚ) * 2 ^ e / (m' * 2 ^ e')) ≤ e - e' := by
  have hmQ : (0 : ℚ) < m := Nat.cast_pos.mpr hm
  have hmQ' : (0 : ℚ) < m' := Nat.cast_pos.mpr hm'
  have hlt : (m : ℚ) < 2 * m' := by
    have hlow := (mantissa_bounds hm' rfl).1
    have hhigh := (mantissa_bounds hm rfl).2
    rw [Nat.add_sub_cancel] at hlow
    rw [hbits, Nat.pow_succ] at hhigh
    exact_mod_cast (by omega : m < 2 * m')
  have hpos : 0 < (m : ℚ) * 2 ^ e / (m' * 2 ^ e') :=
    div_pos (mul_pos hmQ (two_zpow_pos e)) (mul_pos hmQ' (two_zpow_pos e'))
  rw [← Int.lt_add_one_iff, ← not_le, ← zpow_le_iff_le_log hpos, not_le,
    div_lt_iff₀ (mul_pos hmQ' (two_zpow_pos e'))]
  calc (m : ℚ) * 2 ^ e < 2 * m' * 2 ^ e := mul_lt_mul_of_pos_right hlt (two_zpow_pos e)
    _ = 2 ^ (e - e' + 1) * (m' * 2 ^ e') := by
      rw [zpow_add_one₀ two_ne_zero, zpow_sub₀ two_ne_zero]
      field_simp

theorem denotes_div {u v : UnpackedFloat} (hu : Denotes spec u q) (hv : Denotes spec v r)
    (hr : r ≠ 0) (hmin : q ≠ 0 → spec.minExponent + spec.mantissaBits ≤ Int.log 2 (q / r)) :
    Denotes spec (UnpackedFloat.div spec u v) (roundTo spec.mantissaBits (q / r)) := by
  cases hv with
  | zero s' => exact absurd rfl hr
  | @finite m' e' hm' hbits' =>
    cases hu with
    | zero s =>
      rw [zero_div, roundTo_zero]
      exact .zero _
    | @finite m e hm hbits =>
      have hp := one_lt_mantissaBits spec
      have hlow := (mantissa_bounds hm hbits).1
      have hhigh' := (mantissa_bounds hm' hbits').2
      have hexp : spec.minExponent + spec.mantissaBits ≤ e - e' :=
        (hmin (mul_pos (Nat.cast_pos.mpr hm) (two_zpow_pos e)).ne').trans
          (log_div_le hm hm' (by omega))
      have hratio : (m : ℚ) * 2 ^ e / (m' * 2 ^ e') =
          ((m * 2 ^ spec.mantissaBits : Nat) : ℚ) / m' * 2 ^ (e - e' - spec.mantissaBits) := by
        have hne : (m' : ℚ) ≠ 0 := Nat.cast_ne_zero.mpr hm'.ne'
        rw [zpow_sub₀ two_ne_zero, zpow_sub₀ two_ne_zero, zpow_natCast]
        push_cast
        field_simp
      have hdigits : spec.mantissaBits ≤ (m * 2 ^ spec.mantissaBits / m').log2 + 1 := by
        have hquot : 2 ^ (spec.mantissaBits - 1) ≤ m * 2 ^ spec.mantissaBits / m' := by
          rw [Nat.le_div_iff_mul_le hm']
          exact Nat.mul_le_mul hlow hhigh'.le
        have hne : m * 2 ^ spec.mantissaBits / m' ≠ 0 := by
          have := Nat.two_pow_pos (spec.mantissaBits - 1)
          omega
        have := (Nat.le_log2 hne).mpr hquot
        omega
      have hextends := extends_fraction (m := m * 2 ^ spec.mantissaBits / m')
        (Nat.mod_lt (m * 2 ^ spec.mantissaBits) hm')
      rw [div_add_mod_div hm'] at hextends
      have h := denotes_roundWithAccuracy spec (e := e - e' - spec.mantissaBits)
        hextends hdigits (by omega)
      rw [← hratio] at h
      simp only [UnpackedFloat.div]
      rw [divCore_eq hbits hbits' hexp]
      exact h

/-- With mantissas of one length the greater exponent decides. -/
theorem value_lt_of_exponent_lt {m' : Nat} {e' : Int} (hm' : 0 < m') (hbits : m.log2 = m'.log2)
    (he : e < e') : (m : ℚ) * 2 ^ e < m' * 2 ^ e' := by
  have hhigh : (m : ℚ) < 2 ^ (m'.log2 + 1) := by
    rw [← hbits]
    exact_mod_cast Nat.lt_log2_self
  have hlow : (2 : ℚ) ^ m'.log2 ≤ m' := by exact_mod_cast Nat.log2_self_le hm'.ne'
  calc (m : ℚ) * 2 ^ e < 2 ^ (m'.log2 + 1) * 2 ^ e := mul_lt_mul_of_pos_right hhigh (two_zpow_pos e)
    _ = 2 ^ m'.log2 * 2 ^ (e + 1) := by
      rw [zpow_add_one₀ two_ne_zero]
      ring
    _ ≤ 2 ^ m'.log2 * 2 ^ e' :=
      mul_le_mul_of_nonneg_left (zpow_le_zpow_right₀ one_le_two he) (by positivity)
    _ ≤ m' * 2 ^ e' := mul_le_mul_of_nonneg_right hlow (two_zpow_pos e').le

/-- The comparison of two numbers is that of their values. -/
theorem denotes_lt {u v : UnpackedFloat} (hu : Denotes spec u q) (hv : Denotes spec v r) :
    u.lt v = true ↔ q < r := by
  cases hu with
  | zero s =>
    cases hv with
    | zero s' => simp [UnpackedFloat.lt, UnpackedFloat.compare]
    | @finite m' e' hm' hbits' =>
      have hpos : (0 : ℚ) < m' * 2 ^ e' := mul_pos (Nat.cast_pos.mpr hm') (two_zpow_pos e')
      simpa only [UnpackedFloat.lt, UnpackedFloat.compare, beq_self_eq_true, true_iff] using hpos
  | @finite m e hm hbits =>
    have hpos : (0 : ℚ) < m * 2 ^ e := mul_pos (Nat.cast_pos.mpr hm) (two_zpow_pos e)
    cases hv with
    | zero s' =>
      refine iff_of_false ?_ (not_lt.mpr hpos.le)
      simp [UnpackedFloat.lt, UnpackedFloat.compare]
    | @finite m' e' hm' hbits' =>
      have hlog : m.log2 = m'.log2 := by omega
      have hlt : UnpackedFloat.lt (.finite .positive m e hm) (.finite .positive m' e' hm') = true ↔
          (compare e e').then (compare m m') = .lt := by
        simp [UnpackedFloat.lt, UnpackedFloat.compare]
      rw [hlt]
      rcases Int.lt_trichotomy e e' with he | rfl | he
      · rw [Int.compare_eq_lt.mpr he]
        exact iff_of_true rfl (value_lt_of_exponent_lt hm' hlog he)
      · rw [Int.compare_eq_eq.mpr rfl, mul_lt_mul_iff_left₀ (two_zpow_pos e), Nat.cast_lt]
        exact Nat.compare_eq_lt
      · rw [Int.compare_eq_gt.mpr he]
        exact iff_of_false (by simp) (value_lt_of_exponent_lt hm hlog.symm he).not_gt

end Zrt.Floating
