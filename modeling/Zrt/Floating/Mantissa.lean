import Mathlib.Data.Rat.Floor
import Mathlib.Tactic.FieldSimp
import Zrt.Rounding

/-! The mantissas of the binary formats, as the numbers they stand for while they are rounded. -/
namespace Zrt.Floating

open Float.Model UnpackedFloat Rounding

variable {spec : Format} {em : ExtendedMantissa} {x : ℚ} {m num den : Nat} {e : Int}

/-- An extended mantissa stands for `x`: half a unit more when its round bit is set, and less
than half a unit more when its sticky bit is. -/
def Extends (em : ExtendedMantissa) (x : ℚ) : Prop :=
  ∃ rest : ℚ, 0 ≤ rest ∧ rest < 1 / 2 ∧ (em.stickyBit = true ↔ 0 < rest) ∧
    x = em.mantissa + (bif em.roundBit then 1 / 2 else 0) + rest

theorem extends_exact (m : Nat) : Extends (.ofMantissaAndAccuracy m .exact) m :=
  ⟨0, by simp [ExtendedMantissa.ofMantissaAndAccuracy]⟩

theorem extends_fraction (h : num < den) :
    Extends (.ofMantissaAndAccuracy m (accuracyOfFraction num den)) (m + num / den) := by
  have hden : (0 : ℚ) < den := Nat.cast_pos.mpr (Nat.lt_of_le_of_lt (Nat.zero_le num) h)
  have hlt : (num : ℚ) < den := by exact_mod_cast h
  unfold accuracyOfFraction
  split
  · rename_i hz
    subst hz
    simpa using extends_exact m
  · rename_i hz
    have hnum : (0 : ℚ) < num := by exact_mod_cast Nat.pos_of_ne_zero hz
    rcases Nat.lt_trichotomy (2 * num) den with hlow | heq | hhigh
    · have hhalf : (num : ℚ) / den < 1 / 2 := by
        rw [div_lt_div_iff₀ hden two_pos]
        exact_mod_cast (by omega : num * 2 < 1 * den)
      rw [Nat.compare_eq_lt.mpr hlow]
      exact ⟨num / den, by positivity, hhalf,
        by simp [ExtendedMantissa.ofMantissaAndAccuracy, hnum, hden],
        by simp [ExtendedMantissa.ofMantissaAndAccuracy]⟩
    · have hhalf : (num : ℚ) / den = 1 / 2 := by
        rw [div_eq_div_iff hden.ne' two_ne_zero]
        exact_mod_cast (by omega : num * 2 = 1 * den)
      rw [Nat.compare_eq_eq.mpr heq, hhalf]
      exact ⟨0, by simp [ExtendedMantissa.ofMantissaAndAccuracy]⟩
    · have hhalf : 1 / 2 < (num : ℚ) / den := by
        rw [div_lt_div_iff₀ two_pos hden]
        exact_mod_cast (by omega : 1 * den < num * 2)
      have hone : (num : ℚ) / den < 1 := (div_lt_one hden).mpr hlt
      rw [Nat.compare_eq_gt.mpr hhigh]
      refine ⟨num / den - 1 / 2, by linarith, by linarith, ?_, ?_⟩
      · simp [ExtendedMantissa.ofMantissaAndAccuracy]
        linarith
      · simp [ExtendedMantissa.ofMantissaAndAccuracy]

theorem Extends.shiftRightOne (h : Extends em x) : Extends em.shiftRightOne (x / 2) := by
  obtain ⟨rest, h0, hhalf, hsticky, rfl⟩ := h
  have hmod : (em.mantissa : ℚ) = 2 * (em.mantissa / 2 : Nat) + (em.mantissa % 2 : Nat) := by
    exact_mod_cast (Nat.div_add_mod em.mantissa 2).symm
  have hbit : ((em.mantissa % 2 : Nat) : ℚ) / 2 = bif em.mantissa % 2 != 0 then 1 / 2 else 0 := by
    rcases Nat.mod_two_eq_zero_or_one em.mantissa with hz | ho
    · simp [hz]
    · simp [ho]
  refine ⟨((bif em.roundBit then 1 / 2 else 0) + rest) / 2, ?_, ?_, ?_, ?_⟩
  · cases em.roundBit
    · rw [cond_false]
      linarith
    · rw [cond_true]
      linarith
  · cases em.roundBit
    · rw [cond_false]
      linarith
    · rw [cond_true]
      linarith
  · cases hr : em.roundBit
    · simp [ExtendedMantissa.shiftRightOne, hr, hsticky]
    · simp [ExtendedMantissa.shiftRightOne, hr]
      linarith
  · change _ = ((em.mantissa / 2 : Nat) : ℚ) + (bif em.mantissa % 2 != 0 then 1 / 2 else 0) + _
    rw [← hbit, hmod]
    ring

theorem Extends.shiftRight (h : Extends em x) (n : Nat) : Extends (em >>> n) (x / 2 ^ n) := by
  change Extends (n.repeat ExtendedMantissa.shiftRightOne em) _
  induction n with
  | zero => simpa [Nat.repeat] using h
  | succ n ih =>
    rw [Nat.repeat, pow_succ, ← div_div]
    exact ih.shiftRightOne

theorem Extends.floor (h : Extends em x) : ⌊x⌋ = em.mantissa := by
  obtain ⟨rest, h0, hhalf, -, rfl⟩ := h
  rw [Int.floor_eq_iff, Int.cast_natCast]
  cases em.roundBit
  · rw [cond_false]
    constructor <;> linarith
  · rw [cond_true]
    constructor <;> linarith

/-- The residual bits are what rounding to the nearest integer asks. -/
theorem Extends.roundedMantissa (h : Extends em x) :
    (em.roundedMantissa : Int) = nearestEven x := by
  have hfloor := h.floor
  obtain ⟨rest, h0, hhalf, hsticky, hx⟩ := h
  have hfract : Int.fract x = (bif em.roundBit then 1 / 2 else 0) + rest := by
    rw [← Int.self_sub_floor, hfloor, hx, Int.cast_natCast]
    ring
  obtain ⟨mantissa, roundBit, stickyBit⟩ := em
  rw [nearestEven, hfract, hfloor]
  cases roundBit <;> cases stickyBit
  · have hrest : rest = 0 := le_antisymm (not_lt.mp (by simpa using hsticky)) h0
    rw [hrest, cond_false, add_zero, if_pos one_half_pos]
    rfl
  · rw [cond_false, zero_add, if_pos hhalf]
    rfl
  · have hrest : rest = 0 := le_antisymm (not_lt.mp (by simpa using hsticky)) h0
    rw [hrest, cond_true, add_zero, if_neg (lt_irrefl _), if_pos rfl]
    rfl
  · have hrest : 0 < rest := by simpa using hsticky
    rw [cond_true, if_neg (by linarith), if_neg (by linarith)]
    rfl

theorem Extends.log (h : Extends em x) (hm : em.mantissa ≠ 0) :
    Int.log 2 x = em.mantissa.log2 := by
  have hfloor := h.floor
  have hone : 1 ≤ x := by
    have hle : (1 : Int) ≤ ⌊x⌋ := by omega
    exact_mod_cast Int.le_floor.mp hle
  have hnat : ⌊x⌋₊ = em.mantissa := by
    rw [← Int.floor_toNat, hfloor, Int.toNat_natCast]
  rw [Int.log_of_one_le_right 2 hone, hnat, Nat.log2_eq_log_two]

theorem ofMantissaAndAccuracy_mantissa (m : Nat) (acc : Accuracy) :
    (ExtendedMantissa.ofMantissaAndAccuracy m acc).mantissa = m := by
  obtain _ | order := acc
  · rfl
  · cases order <;> rfl

theorem Extends.pos {acc : Accuracy} (h : Extends (.ofMantissaAndAccuracy m acc) x)
    (hm : m ≠ 0) : 0 < x := by
  have hfloor := h.floor
  rw [ofMantissaAndAccuracy_mantissa] at hfloor
  exact lt_of_lt_of_le one_pos (Int.floor_pos.mp (by omega))

theorem Extends.log_mul {acc : Accuracy} (h : Extends (.ofMantissaAndAccuracy m acc) x)
    (hm : m ≠ 0) (e : Int) : Int.log 2 (x * 2 ^ e) = m.log2 + e := by
  have hmantissa := ofMantissaAndAccuracy_mantissa m acc
  rw [log_mul_zpow (h.pos hm), h.log (by rwa [hmantissa]), hmantissa]

theorem log_natCast_mul (hm : 0 < m) (e : Int) : Int.log 2 ((m : ℚ) * 2 ^ e) = m.log2 + e :=
  (extends_exact m).log_mul hm.ne' e

theorem mantissa_bounds {p : Nat} (hm : 0 < m) (hbits : m.log2 + 1 = p) :
    2 ^ (p - 1) ≤ m ∧ m < 2 ^ p := by
  subst hbits
  exact ⟨Nat.log2_self_le hm.ne', Nat.lt_log2_self⟩

theorem one_lt_mantissaBits (spec : Format) : 1 < spec.mantissaBits := by
  have := spec.hm
  unfold Format.mantissaBits
  omega

theorem shiftToExponent_eq (acc : Accuracy) {target : Int} (h : e ≤ target) :
    shiftToExponent m e acc target =
      (ExtendedMantissa.ofMantissaAndAccuracy m acc >>> (target - e).toNat, target) := by
  simp only [shiftToExponent, Prod.mk.injEq, true_and]
  omega

theorem targetExponent_eq (h : spec.minExponent + spec.mantissaBits ≤ m.log2 + 1 + e) :
    spec.targetExponent (totalExponent m e) = m.log2 + 1 + e - spec.mantissaBits := by
  simp only [Format.targetExponent, totalExponent]
  omega

/-- A mantissa with enough digits is shifted to the exponent of the last digit that stays, and
its rounding there is that of the number it stands for. -/
theorem shiftToTargetExponent_eq {acc : Accuracy}
    (h : Extends (.ofMantissaAndAccuracy m acc) x) (hm : m ≠ 0)
    (hbits : spec.mantissaBits ≤ m.log2 + 1)
    (hmin : spec.minExponent + spec.mantissaBits ≤ m.log2 + 1 + e) :
    ∃ em, shiftToTargetExponent spec m e acc =
        (em, unitExponent spec.mantissaBits (x * 2 ^ e)) ∧
      (em.roundedMantissa : Int) =
        nearestEven (x * 2 ^ e / 2 ^ unitExponent spec.mantissaBits (x * 2 ^ e)) := by
  have hunit : unitExponent spec.mantissaBits (x * 2 ^ e) = m.log2 + 1 + e - spec.mantissaBits := by
    rw [unitExponent, h.log_mul hm]
    omega
  rw [shiftToTargetExponent, targetExponent_eq hmin, hunit, shiftToExponent_eq acc (by omega)]
  refine ⟨_, rfl, ?_⟩
  rw [(h.shiftRight _).roundedMantissa, ← zpow_natCast, Int.toNat_of_nonneg (by omega),
    zpow_sub₀ two_ne_zero, div_div_eq_mul_div]

/-- A rounded mantissa may have one digit too many; shifting it out loses nothing. -/
theorem carry_eq (hlow : 2 ^ (spec.mantissaBits - 1) ≤ m) (hhigh : m ≤ 2 ^ spec.mantissaBits)
    (he : spec.minExponent ≤ e) :
    ((shiftToTargetExponent spec m e .exact).1.mantissa.log2 + 1 = spec.mantissaBits) ∧
    ((shiftToTargetExponent spec m e .exact).1.mantissa : ℚ) *
      2 ^ (shiftToTargetExponent spec m e .exact).2 = m * 2 ^ e := by
  have hbits := one_lt_mantissaBits spec
  have hpos : m ≠ 0 := by
    have := Nat.two_pow_pos (spec.mantissaBits - 1)
    omega
  rcases hhigh.lt_or_eq with hlt | rfl
  · have hlog : m.log2 = spec.mantissaBits - 1 := by
      rw [Nat.log2_eq_iff hpos]
      exact ⟨hlow, by rwa [Nat.sub_add_cancel (by omega)]⟩
    have htarget : spec.targetExponent (totalExponent m e) = e := by
      rw [targetExponent_eq (by omega)]
      omega
    rw [shiftToTargetExponent, htarget, shiftToExponent_eq _ (Int.le_refl e), Int.sub_self]
    exact ⟨by change m.log2 + 1 = _; omega, rfl⟩
  · have htarget : spec.targetExponent (totalExponent (2 ^ spec.mantissaBits) e) = e + 1 := by
      rw [targetExponent_eq (by rw [Nat.log2_two_pow]; omega), Nat.log2_two_pow]
      omega
    have hhalf : 2 ^ spec.mantissaBits / 2 = 2 ^ (spec.mantissaBits - 1) := by
      rw [← Nat.pow_div (by omega) two_pos, Nat.pow_one]
    rw [shiftToTargetExponent, htarget, shiftToExponent_eq _ (by omega),
      show e + 1 - e = 1 by omega]
    change ((2 ^ spec.mantissaBits / 2).log2 + 1 = spec.mantissaBits) ∧
      ((2 ^ spec.mantissaBits / 2 : Nat) : ℚ) * 2 ^ (e + 1) = _
    rw [hhalf, Nat.log2_two_pow]
    refine ⟨by omega, ?_⟩
    push_cast
    rw [← zpow_natCast, ← zpow_natCast, ← zpow_add₀ two_ne_zero, ← zpow_add₀ two_ne_zero]
    congr 1
    omega

end Zrt.Floating
